import SocksProxy.Parsers

/-! The first two client messages as octet strings, and what the incremental
parsers make of a stream that begins with one of them. -/

namespace SocksProxy

open Scanner

/-- VER NMETHODS METHODS. -/
def helloMessage (methods : List UInt8) : List UInt8 :=
  0x05 :: methods.length.toUInt8 :: methods

/-- VER ULEN UNAME PLEN PASSWD. -/
def authMessage (user pass : List UInt8) : List UInt8 :=
  0x01 :: user.length.toUInt8 :: (user ++ pass.length.toUInt8 :: pass)

def FieldLength (field : List UInt8) : Prop :=
  1 ≤ field.length ∧ field.length ≤ 255

instance (field : List UInt8) : Decidable (FieldLength field) :=
  inferInstanceAs (Decidable (_ ∧ _))

theorem toNat_length {octets : List UInt8} (small : octets.length ≤ 255) :
    octets.length.toUInt8.toNat = octets.length :=
  Nat.mod_eq_of_lt (by omega)

theorem FieldLength.ne_zero {field : List UInt8} (valid : FieldLength field) :
    field.length.toUInt8 ≠ 0 := by
  intro zero
  have counted := toNat_length valid.2
  rw [zero] at counted
  have positive := valid.1
  simp at counted
  omega

private abbrev scanHello := scan helloParserFeed HelloParser.finished

private theorem scan_methods_complete {p : HelloParser}
    {methods rest : List UInt8} (state : p.state = .methods)
    (nonempty : methods ≠ []) (counted : methods.length = p.remaining)
    (small : p.remaining ≤ 255) :
    scanHello p (methods ++ rest) =
      (⟨.done, 0, p.hasNoauth || methods.contains methodNoAuth,
        p.hasUserpass || methods.contains methodUserpass⟩, rest, true) := by
  induction methods generalizing p with
  | nil => exact absurd rfl nonempty
  | cons method methods induction =>
      rw [List.length_cons] at counted
      have left : (p.remaining + 255) % 256 = methods.length := by omega
      have fed : helloParserFeed p method =
          ⟨if methods.length = 0 then .done else .methods, methods.length,
            p.hasNoauth || methodNoAuth == method,
            p.hasUserpass || methodUserpass == method⟩ := by
        simp [helloParserFeed, state, left, beq_eq_decide, eq_comm]
      cases methods with
      | nil =>
          rw [List.cons_append, scanHello, scan_cons_stop (by rw [fed]; rfl),
            fed]
          simp [beq_eq_decide]
      | cons other methods =>
          rw [List.cons_append, scanHello, scan_cons_more (by rw [fed]; rfl),
            fed]
          have onward := @induction
            ⟨.methods, (other :: methods).length,
              p.hasNoauth || methodNoAuth == method,
              p.hasUserpass || methodUserpass == method⟩
            rfl (by simp) rfl
            (by simp only [List.length_cons] at counted ⊢; omega)
          simpa [Bool.or_assoc, beq_eq_decide] using onward

private theorem scan_methods_short {p : HelloParser} {tokens : List UInt8}
    (state : p.state = .methods) (short : tokens.length < p.remaining)
    (small : p.remaining ≤ 255) : (scanHello p tokens).2.2 = false := by
  induction tokens generalizing p with
  | nil => rfl
  | cons token tokens induction =>
      rw [List.length_cons] at short
      have left : (p.remaining + 255) % 256 = p.remaining - 1 := by omega
      have more : p.remaining - 1 ≠ 0 := by omega
      have fed : (helloParserFeed p token).state = .methods ∧
          (helloParserFeed p token).remaining = p.remaining - 1 := by
        simp [helloParserFeed, state, left, more]
      rw [scanHello, scan_cons_more (by simp [HelloParser.finished, fed.1])]
      exact induction fed.1 (by omega) (by omega)

private theorem scan_hello_methods (tokens : List UInt8) {count : UInt8}
    (positive : count ≠ 0) :
    scanHello helloParserInit (0x05 :: count :: tokens) =
      scanHello ⟨.methods, count.toNat, false, false⟩ tokens := by
  rw [scanHello, scan_cons_more (by rfl), scan_cons_more]
  · simp [helloParserFeed, helloParserInit, positive]
  · simp [helloParserFeed, helloParserInit, positive, HelloParser.finished]

/-- The parser accepts every HELLO message and keeps the octets after it. -/
theorem scan_helloMessage {methods rest : List UInt8}
    (small : methods.length ≤ 255) :
    ∃ remaining, scan helloParserFeed HelloParser.finished helloParserInit
        (helloMessage methods ++ rest) =
      (⟨.done, remaining, methods.contains methodNoAuth,
        methods.contains methodUserpass⟩, rest, true) := by
  cases methods with
  | nil => exact ⟨0, rfl⟩
  | cons method methods =>
      have valid : FieldLength (method :: methods) := ⟨by simp, small⟩
      refine ⟨0, ?_⟩
      have scanned := scan_hello_methods (method :: methods ++ rest)
        valid.ne_zero
      rw [toNat_length small] at scanned
      refine scanned.trans ?_
      rw [scan_methods_complete rfl (by simp) rfl small]
      simp

theorem helloMessage_whole {left right more rest : List UInt8}
    (smallLeft : left.length ≤ 255) (smallRight : right.length ≤ 255)
    (same : helloMessage left ++ more = helloMessage right ++ rest) :
    more = rest := by
  obtain ⟨_, one⟩ := @scan_helloMessage _ more smallLeft
  obtain ⟨_, two⟩ := @scan_helloMessage _ rest smallRight
  rw [same, two] at one
  exact (congrArg (fun result => result.2.1) one).symm

/-- A stream that the parser accepts begins with a HELLO message. -/
theorem helloMessage_of_scan {p : HelloParser} {tokens rest : List UInt8}
    (scanned : scan helloParserFeed HelloParser.finished helloParserInit
      tokens =
        (p, rest, true)) (accepted : p.state = .done) :
    ∃ methods, methods.length ≤ 255 ∧ tokens = helloMessage methods ++ rest ∧
      p.hasNoauth = methods.contains methodNoAuth ∧
      p.hasUserpass = methods.contains methodUserpass := by
  cases tokens with
  | nil => simp at scanned
  | cons version tokens =>
      by_cases five : version = 0x05
      · subst five
        cases tokens with
        | nil => simp [scan, helloParserFeed, helloParserInit,
            HelloParser.finished] at scanned
        | cons count tokens =>
            by_cases none : count = 0
            · subst none
              have stopped : scanHello helloParserInit (0x05 :: 0 :: tokens) =
                  (⟨.done, 0, false, false⟩, tokens, true) := rfl
              rw [scanHello, scanned] at stopped
              cases stopped
              exact ⟨[], by simp, rfl, rfl, rfl⟩
            · have short (less : tokens.length < count.toNat) :
                  (scanHello ⟨.methods, count.toNat, false, false⟩ tokens).2.2 =
                    false :=
                scan_methods_short rfl less (Nat.le_of_lt_succ count.toNat_lt)
              rw [← scan_hello_methods _ none, scanHello, scanned] at short
              have enough : count.toNat ≤ tokens.length := by
                by_contra less
                exact Bool.noConfusion (short (by simpa using less))
              have small := Nat.le_of_lt_succ count.toNat_lt
              have counted :
                  (tokens.take count.toNat).length = count.toNat := by
                simp [enough]
              refine ⟨tokens.take count.toNat, by omega, ?_⟩
              obtain ⟨left, again⟩ := @scan_helloMessage
                (tokens.take count.toNat) (tokens.drop count.toNat) (by omega)
              have whole : helloMessage (tokens.take count.toNat) ++
                  tokens.drop count.toNat = 0x05 :: count :: tokens := by
                simp [helloMessage, enough]
              rw [whole, scanned] at again
              cases again
              exact ⟨whole.symm, rfl, rfl⟩
      · have failed : scanHello helloParserInit (version :: tokens) =
            (⟨.error, 0, false, false⟩, tokens, true) := by
          simp [scanHello, scan, helloParserFeed, helloParserInit, five,
            HelloParser.finished]
        rw [scanHello, scanned] at failed
        cases failed
        cases accepted

section Copy

variable {Parser : Type} {feed : Parser → UInt8 → Parser}
  {finished : Parser → Bool} {loop : List UInt8 → Nat → Parser}
  {last : List UInt8 → Parser} {count : Nat}

theorem scan_fill
    (more : ∀ array idx octet, idx + 1 < count →
      feed (loop array idx) octet = loop (array.set idx octet) (idx + 1))
    (ends : ∀ array idx octet, idx + 1 = count →
      feed (loop array idx) octet = last (array.set idx octet))
    (running : ∀ array idx, finished (loop array idx) = false)
    (stored : List UInt8) {tail field rest : List UInt8} (nonempty : field ≠ [])
    (counted : stored.length + field.length = count)
    (room : field.length ≤ tail.length) :
    scan feed finished (loop (stored ++ tail) stored.length) (field ++ rest) =
      let copied := last (stored ++ field ++ tail.drop field.length)
      if finished copied then (copied, rest, true)
      else scan feed finished copied rest := by
  induction field generalizing stored tail with
  | nil => exact absurd rfl nonempty
  | cons octet field induction =>
      rw [List.length_cons] at counted room
      cases tail with
      | nil => exact absurd room (Nat.not_succ_le_zero _)
      | cons old tail =>
          rw [List.length_cons, Nat.add_le_add_iff_right] at room
          have written : (stored ++ old :: tail).set stored.length octet =
              (stored ++ [octet]) ++ tail := by
            simp
          cases field with
          | nil =>
              have fed := ends (stored ++ old :: tail) _ octet counted
              rw [written] at fed
              simp only [List.cons_append, List.nil_append, scan, fed]
              simp
          | cons other field =>
              have before : stored.length + 1 < count := by
                simp only [List.length_cons] at counted
                omega
              have onward := @induction (stored ++ [octet]) tail (by simp) (by
                  simp only [List.length_append, List.length_cons,
                    List.length_nil] at counted ⊢
                  omega) room
              rw [List.cons_append, scan_cons_more, more _ _ _ before, written]
              · simpa using onward
              · rw [more _ _ _ before]
                exact running _ _

theorem scan_copy_complete
    (more : ∀ array idx octet, idx + 1 < count →
      feed (loop array idx) octet = loop (array.set idx octet) (idx + 1))
    (ends : ∀ array idx octet, idx + 1 = count →
      feed (loop array idx) octet = last ((array.set idx octet).set count 0))
    (running : ∀ array idx, finished (loop array idx) = false)
    (stored : List UInt8) {tail field rest : List UInt8} (nonempty : field ≠ [])
    (counted : stored.length + field.length = count)
    (room : field.length < tail.length) :
    scan feed finished (loop (stored ++ tail) stored.length) (field ++ rest) =
      let copied := last (stored ++ field ++ 0 :: tail.drop (field.length + 1))
      if finished copied then (copied, rest, true)
      else scan feed finished copied rest := by
  have position : count = (stored ++ field).length := by
    rw [List.length_append]
    exact counted.symm
  have terminated : (stored ++ field ++ tail.drop field.length).set count 0 =
      stored ++ field ++ 0 :: tail.drop (field.length + 1) := by
    rw [List.drop_eq_getElem_cons room, position,
      List.set_append_right _ _ (Nat.le_refl _), Nat.sub_self,
      List.set_cons_zero]
  have filled := @scan_fill Parser feed finished loop
    (fun array => last (array.set count 0)) count more ends running
    stored tail field rest nonempty counted (Nat.le_of_lt room)
  dsimp only at filled ⊢
  rwa [terminated] at filled

private theorem scan_copy_short (more : ∀ array idx octet, idx + 1 < count →
      feed (loop array idx) octet = loop (array.set idx octet) (idx + 1))
    (running : ∀ array idx, finished (loop array idx) = false)
    {array tokens : List UInt8} {idx : Nat}
    (short : idx + tokens.length < count) :
    (scan feed finished (loop array idx) tokens).2.2 = false := by
  induction tokens generalizing array idx with
  | nil => rfl
  | cons octet tokens induction =>
      rw [List.length_cons] at short
      have fed := more array idx octet (by omega)
      rw [scan_cons_more (by rw [fed]; exact running _ _), fed]
      exact induction (by omega)

theorem enough_of_copy
    (more : ∀ array idx octet, idx + 1 < count →
      feed (loop array idx) octet = loop (array.set idx octet) (idx + 1))
    (running : ∀ array idx, finished (loop array idx) = false)
    {array tokens rest : List UInt8} {q : Parser}
    (scanned : scan feed finished (loop array 0) tokens = (q, rest, true)) :
    count ≤ tokens.length := by
  by_contra less
  have short : (scan feed finished (loop array 0) tokens).2.2 = false :=
    scan_copy_short more running (by omega)
  rw [scanned] at short
  cases short

end Copy

/-- The parser in the two copying states, with its array and index open. -/
private def unameLoop (p : AuthParser) (count : Nat) (array : List UInt8)
    (idx : Nat) : AuthParser :=
  { p with state := .uname, ulen := count, username := array, idx := idx }

private def unameDone (p : AuthParser) (count : Nat) (array : List UInt8) :
    AuthParser :=
  { p with state := .plen, ulen := count, username := array, idx := count }

private def passwdLoop (p : AuthParser) (count : Nat) (array : List UInt8)
    (idx : Nat) : AuthParser :=
  { p with state := .passwd, plen := count, password := array, idx := idx }

private def passwdDone (p : AuthParser) (count : Nat) (array : List UInt8) :
    AuthParser :=
  { p with state := .done, plen := count, password := array, idx := count }

section AuthSteps

variable (p : AuthParser) {count : Nat} (small : count ≤ 255)
  (array : List UInt8) (idx : Nat) (octet : UInt8)

include small

private theorem feed_uname_more (before : idx + 1 < count) :
    authParserFeed (unameLoop p count array idx) octet =
      unameLoop p count (array.set idx octet) (idx + 1) := by
  have next : (idx + 1) % 256 = idx + 1 := Nat.mod_eq_of_lt (by omega)
  have apart : ¬ idx + 1 = count := by omega
  simp only [authParserFeed, unameLoop, next, apart, if_false]

private theorem feed_uname_ends (full : idx + 1 = count) :
    authParserFeed (unameLoop p count array idx) octet =
      unameDone p count ((array.set idx octet).set count 0) := by
  have next : (idx + 1) % 256 = count := by omega
  simp only [authParserFeed, unameLoop, unameDone, next, if_true]

private theorem feed_passwd_more (before : idx + 1 < count) :
    authParserFeed (passwdLoop p count array idx) octet =
      passwdLoop p count (array.set idx octet) (idx + 1) := by
  have next : (idx + 1) % 256 = idx + 1 := Nat.mod_eq_of_lt (by omega)
  have apart : ¬ idx + 1 = count := by omega
  simp only [authParserFeed, passwdLoop, next, apart, if_false]

private theorem feed_passwd_ends (full : idx + 1 = count) :
    authParserFeed (passwdLoop p count array idx) octet =
      passwdDone p count ((array.set idx octet).set count 0) := by
  have next : (idx + 1) % 256 = count := by omega
  simp only [authParserFeed, passwdLoop, passwdDone, next, if_true]

end AuthSteps

private theorem scan_toName (p : AuthParser) (tokens : List UInt8)
    {count : UInt8} (positive : count ≠ 0) :
    scan authParserFeed AuthParser.finished (authParserInit p)
        (0x01 :: count :: tokens) =
      scan authParserFeed AuthParser.finished
        (unameLoop (authParserInit p) count.toNat (p.username.set 0 0) 0)
        tokens := by
  rw [scan_cons_more (by rfl), scan_cons_more]
  · simp [authParserFeed, authParserInit, positive, unameLoop]
  · simp [authParserFeed, authParserInit, positive, AuthParser.finished]

private theorem scan_name (p : AuthParser) {user array rest : List UInt8}
    (room : array.length = 256) (valid : FieldLength user) :
    scan authParserFeed AuthParser.finished
        (unameLoop p user.length array 0) (user ++ rest) =
      scan authParserFeed AuthParser.finished
        (unameDone p user.length (user ++ 0 :: array.drop (user.length + 1)))
        rest :=
  scan_copy_complete (feed_uname_more p valid.2) (feed_uname_ends p valid.2)
    (fun _ _ => rfl) [] (List.length_pos_iff.mp valid.1) (by simp)
    (by rw [room]; exact Nat.lt_succ_of_le valid.2)

private theorem scan_toPassword (p : AuthParser) {count : UInt8} {used : Nat}
    {array tokens : List UInt8} (positive : count ≠ 0) :
    scan authParserFeed AuthParser.finished (unameDone p used array)
        (count :: tokens) =
      scan authParserFeed AuthParser.finished
        (passwdLoop (unameDone p used array) count.toNat p.password 0)
          tokens := by
  rw [scan_cons_more]
  · simp [authParserFeed, unameDone, positive, passwdLoop]
  · simp [authParserFeed, unameDone, positive, AuthParser.finished]

private theorem scan_pass (p : AuthParser) {pass array rest : List UInt8}
    (room : array.length = 256) (valid : FieldLength pass) :
    scan authParserFeed AuthParser.finished
        (passwdLoop p pass.length array 0) (pass ++ rest) =
      (passwdDone p pass.length (pass ++ 0 :: array.drop (pass.length + 1)),
        rest, true) :=
  scan_copy_complete (feed_passwd_more p valid.2) (feed_passwd_ends p valid.2)
    (fun _ _ => rfl) [] (List.length_pos_iff.mp valid.1) (by simp)
    (by rw [room]; exact Nat.lt_succ_of_le valid.2)

/-- The two arrays hold a field of any length together with its terminator. -/
def AuthParser.Roomy (p : AuthParser) : Prop :=
  p.username.length = 256 ∧ p.password.length = 256

structure AuthParser.Holds (p : AuthParser) (user pass : List UInt8) :
    Prop where
  state : p.state = .done
  ulen : p.ulen = user.length
  plen : p.plen = pass.length
  username : ∃ tail, p.username = user ++ 0 :: tail
  password : ∃ tail, p.password = pass ++ 0 :: tail

/-- The parser accepts every message, keeps the octets after it and stores its
two fields. -/
theorem scan_authMessage {p : AuthParser} {user pass rest : List UInt8}
    (roomy : p.Roomy) (validUser : FieldLength user)
    (validPass : FieldLength pass) :
    ∃ q, scan authParserFeed AuthParser.finished (authParserInit p)
        (authMessage user pass ++ rest) = (q, rest, true) ∧
        q.Holds user pass := by
  have toName := scan_toName p (user ++ pass.length.toUInt8 :: (pass ++ rest))
    validUser.ne_zero
  rw [toNat_length validUser.2, scan_name _ (by simpa using roomy.1) validUser,
    scan_toPassword _ validPass.ne_zero, toNat_length validPass.2,
    scan_pass _ (by simpa [authParserInit] using roomy.2) validPass] at toName
  have message : authMessage user pass ++ rest =
      0x01 :: user.length.toUInt8 ::
        (user ++ pass.length.toUInt8 :: (pass ++ rest)) := by
    simp [authMessage]
  rw [message]
  exact ⟨_, toName, rfl, rfl, rfl, ⟨_, rfl⟩, ⟨_, rfl⟩⟩

theorem split_field {count : UInt8} {tokens : List UInt8}
    (positive : count ≠ 0) (enough : count.toNat ≤ tokens.length) :
    ∃ field rest, FieldLength field ∧ field.length = count.toNat ∧
      tokens = field ++ rest := by
  have counted : (tokens.take count.toNat).length = count.toNat := by
    simp [enough]
  have nonzero : count.toNat ≠ 0 :=
    fun zero => positive (UInt8.toNat_inj.mp zero)
  have small := count.toNat_lt
  exact ⟨tokens.take count.toNat, tokens.drop count.toNat,
    ⟨by omega, by omega⟩, counted, (List.take_append_drop ..).symm⟩

private theorem pass_of_scan {p q : AuthParser} {used : Nat}
    {array tokens rest : List UInt8}
    (scanned : scan authParserFeed AuthParser.finished (unameDone p used array)
      tokens = (q, rest, true)) (accepted : q.state = .done) :
    ∃ pass after, FieldLength pass ∧
      tokens = pass.length.toUInt8 :: (pass ++ after) := by
  cases tokens with
  | nil => simp at scanned
  | cons count tokens =>
      by_cases none : count = 0
      · subst none
        rw [scan_cons_stop (by rfl)] at scanned
        cases scanned
        cases accepted
      · rw [scan_toPassword p none] at scanned
        have enough := enough_of_copy
          (feed_passwd_more _ (Nat.le_of_lt_succ count.toNat_lt))
          (fun _ _ => rfl) scanned
        obtain ⟨pass, after, valid, counted, rfl⟩ := split_field none enough
        exact ⟨pass, after, valid, by simp [counted]⟩

private theorem fields_of_scan {p q : AuthParser} {tokens rest : List UInt8}
    (roomy : p.Roomy)
    (scanned : scan authParserFeed AuthParser.finished
      (authParserInit p) tokens =
        (q, rest, true)) (accepted : q.state = .done) :
    ∃ user pass after, FieldLength user ∧ FieldLength pass ∧
      tokens = authMessage user pass ++ after := by
  cases tokens with
  | nil => simp at scanned
  | cons version tokens =>
      by_cases one : version = 0x01
      · subst one
        cases tokens with
        | nil =>
            simp [scan, authParserFeed, authParserInit,
              AuthParser.finished] at scanned
        | cons count tokens =>
            by_cases none : count = 0
            · subst none
              rw [scan_cons_more (by rfl), scan_cons_stop (by rfl)] at scanned
              cases scanned
              cases accepted
            · rw [scan_toName p tokens none] at scanned
              have enough := enough_of_copy
                (feed_uname_more _ (Nat.le_of_lt_succ count.toNat_lt))
                (fun _ _ => rfl) scanned
              obtain ⟨user, after, valid, counted, rfl⟩ :=
                split_field none enough
              rw [← counted, scan_name _ (by simpa using roomy.1) valid]
                at scanned
              obtain ⟨pass, remaining, validPass, rfl⟩ :=
                pass_of_scan scanned accepted
              refine ⟨user, pass, remaining, valid, validPass, ?_⟩
              simp [authMessage, counted]
      · rw [scan_cons_stop] at scanned
        · cases scanned
          simp [authParserFeed, authParserInit, one] at accepted
        · simp [authParserFeed, authParserInit, one, AuthParser.finished]

/-- A stream that the parser accepts begins with a message, whose fields it has
stored. -/
theorem authFields_of_scan {p q : AuthParser} {tokens rest : List UInt8}
    (roomy : p.Roomy)
    (scanned : scan authParserFeed AuthParser.finished
      (authParserInit p) tokens =
        (q, rest, true)) (accepted : q.state = .done) :
    ∃ user pass, FieldLength user ∧ FieldLength pass ∧
      tokens = authMessage user pass ++ rest ∧ q.Holds user pass := by
  obtain ⟨user, pass, after, validUser, validPass, rfl⟩ :=
    fields_of_scan roomy scanned accepted
  obtain ⟨r, again, holds⟩ :=
    @scan_authMessage p user pass after roomy validUser validPass
  rw [scanned] at again
  cases again
  exact ⟨user, pass, validUser, validPass, rfl, holds⟩

theorem authMessage_of_scan {p q : AuthParser} {tokens rest : List UInt8}
    (roomy : p.Roomy)
    (scanned : scan authParserFeed AuthParser.finished
      (authParserInit p) tokens =
        (q, rest, true)) (accepted : q.state = .done) :
    ∃ user pass, FieldLength user ∧ FieldLength pass ∧
      tokens = authMessage user pass ++ rest ∧
      CString.ofArray q.username = .ofArray user ∧
      CString.ofArray q.password = .ofArray pass := by
  obtain ⟨user, pass, validUser, validPass, split, holds⟩ :=
    authFields_of_scan roomy scanned accepted
  obtain ⟨userTail, username⟩ := holds.username
  obtain ⟨passTail, password⟩ := holds.password
  refine ⟨user, pass, validUser, validPass, split, ?_, ?_⟩
  · rw [username, CString.ofArray_append_nul]
  · rw [password, CString.ofArray_append_nul]

theorem authMessage_whole {user pass otherUser otherPass more rest : List UInt8}
    (validUser : FieldLength user) (validPass : FieldLength pass)
    (validOther : FieldLength otherUser)
    (validOtherPass : FieldLength otherPass)
    (same : authMessage user pass ++ more =
      authMessage otherUser otherPass ++ rest) :
    more = rest := by
  have roomy : AuthParser.Roomy
      ⟨.version, 0, 0, 0, List.replicate 256 0, List.replicate 256 0⟩ :=
    ⟨List.length_replicate, List.length_replicate⟩
  obtain ⟨_, one, -⟩ := @scan_authMessage _ _ _ more roomy validUser validPass
  obtain ⟨_, two, -⟩ :=
    @scan_authMessage _ _ _ rest roomy validOther validOtherPass
  rw [same, two] at one
  exact (congrArg (fun result => result.2.1) one).symm

end SocksProxy
