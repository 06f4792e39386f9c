import SocksProxy.Socks5.Grammar

/-! The three parsers take exactly the messages of their grammars, however the
stream is cut into buffers. -/

namespace SocksProxy

open Scanner

def octetsOf (buffers : List Buffer) : List UInt8 :=
  buffers.flatMap Buffer.content

/-- The parser is given one buffer after the other until it reports; the buffers
that were not read to their end come back. -/
def consumePieces {Parser : Type}
    (consume : Parser → Buffer → Parser × Buffer × Option Bool) :
    Parser → List Buffer → Parser × List Buffer × Option Bool
  | p, [] => (p, [], none)
  | p, b :: buffers =>
      match consume p b with
      | (q, left, some error) => (q, left :: buffers, some error)
      | (q, _, none) => consumePieces consume q buffers

section Pieces

variable {Parser : Type} {feed : Parser → UInt8 → Parser}
  {finished failed : Parser → Bool}
  {consume : Parser → Buffer → Parser × Buffer × Option Bool}

/-- The consume function is the common loop, with the outcome told apart. -/
def Consumes (consume : Parser → Buffer → Parser × Buffer × Option Bool)
    (feed : Parser → UInt8 → Parser) (finished failed : Parser → Bool) : Prop :=
  ∀ p b, consume p b =
    match parserConsume feed finished p b with
    | (q, left, stop) => (q, left, if stop then some (failed q) else none)

/-- The outcome is that of one scan of all the octets. -/
theorem consumePieces_scan (consumes : Consumes consume feed finished failed)
    {p q : Parser} {buffers : List Buffer} {rest : List UInt8} {stop : Bool}
    (scanned : scan feed finished p (octetsOf buffers) = (q, rest, stop)) :
    ∃ left, octetsOf left = rest ∧
      consumePieces consume p buffers =
        (q, left, if stop then some (failed q) else none) := by
  induction buffers generalizing p with
  | nil =>
      cases scanned
      exact ⟨[], rfl, rfl⟩
  | cons b buffers induction =>
      rcases first : scan feed finished p b.content with ⟨next, kept, stopped⟩
      obtain ⟨buffer, content, -, -, -, consumed⟩ := parserConsume_scan first
      have reported := consumes p b
      rw [consumed] at reported
      change scan feed finished p (b.content ++ octetsOf buffers) = _ at scanned
      cases stopped with
      | true =>
          rw [scan_append_stop first] at scanned
          cases scanned
          refine ⟨buffer :: buffers, ?_, ?_⟩
          · change buffer.content ++ octetsOf buffers = _
            rw [content]
          · rw [consumePieces, reported]
            rfl
      | false =>
          rw [scan_append_more first] at scanned
          obtain ⟨left, unread, onward⟩ := induction scanned
          refine ⟨left, unread, ?_⟩
          rw [consumePieces, reported]
          exact onward

end Pieces

def Encoded {Message : Type} (encode : Message → List UInt8)
    (octets : List UInt8) :
    Prop :=
  ∃ message, octets = encode message

/-- What a consume function owes to a grammar, for every way of cutting a stream
into buffers: it takes a message and leaves what follows, it takes nothing else,
it waits as long as the octets are part of a message, and it refuses the first
octet that no message has there. -/
structure Parses {Parser Message : Type}
    (consume : Parser → Buffer → Parser × Buffer × Option Bool) (first : Parser)
    (encode : Message → List UInt8) (Decoded : Parser → Message → Prop) :
    Prop where
  takes : ∀ buffers message rest, octetsOf buffers = encode message ++ rest →
    ∃ p left, consumePieces consume first buffers = (p, left, some false) ∧
      octetsOf left = rest ∧ Decoded p message
  sound : ∀ buffers p left,
    consumePieces consume first buffers = (p, left, some false) →
    ∃ message, octetsOf buffers = encode message ++ octetsOf left
  waits : ∀ buffers, (consumePieces consume first buffers).2.2 = none ↔
    Partial (Encoded encode) (octetsOf buffers)
  refuses : ∀ buffers rest,
    (∃ p left, consumePieces consume first buffers = (p, left, some true) ∧
      octetsOf left = rest) ↔
    ∃ front octet, octetsOf buffers = front ++ octet :: rest ∧
      Partial (Encoded encode) front ∧
      ¬ Completable (Encoded encode) (front ++ [octet])

section Parses

variable {Parser Message : Type} {feed : Parser → UInt8 → Parser}
  {finished failed : Parser → Bool}
  {consume : Parser → Buffer → Parser × Buffer × Option Bool} {first : Parser}
  {encode : Message → List UInt8} {Decoded : Parser → Message → Prop}

theorem parses_of_recognises (consumes : Consumes consume feed finished failed)
    (recognises : Recognises feed finished (fun p => !failed p) first
      (Encoded encode))
    (decodes : ∀ message rest, ∃ p,
      scan feed finished first (encode message ++ rest) = (p, rest, true) ∧
        failed p = false ∧ Decoded p message) :
    Parses consume first encode Decoded where
  takes := by
    intro buffers message rest split
    obtain ⟨p, scanned, accepted, decoded⟩ := decodes message rest
    rw [← split] at scanned
    obtain ⟨left, unread, consumed⟩ := consumePieces_scan consumes scanned
    rw [if_pos rfl, accepted] at consumed
    exact ⟨p, left, consumed, unread, decoded⟩
  sound := by
    intro buffers p left taken
    rcases scanned : scan feed finished first (octetsOf buffers) with
      ⟨q, rest, stop⟩
    obtain ⟨kept, unread, consumed⟩ := consumePieces_scan consumes scanned
    rw [taken] at consumed
    cases stop with
    | false => cases consumed
    | true =>
        rw [if_pos rfl] at consumed
        obtain ⟨rfl, rfl, accepted⟩ : p = q ∧ left = kept ∧
            failed q = false := by
          simpa using consumed
        obtain ⟨_, ⟨message, rfl⟩, split⟩ :=
          recognises.accepts_iff.mp ⟨p, scanned, by rw [accepted]; rfl⟩
        exact ⟨message, by rw [split, unread]⟩
  waits := by
    intro buffers
    rw [← recognises.waits_iff]
    rcases scanned : scan feed finished first (octetsOf buffers) with
      ⟨q, rest, stop⟩
    obtain ⟨left, unread, consumed⟩ := consumePieces_scan consumes scanned
    rw [consumed]
    cases stop with
    | true => simp
    | false =>
        have nothing := scan_more_rest scanned
        subst nothing
        simp
  refuses := by
    intro buffers rest
    rw [← recognises.refuses_iff]
    rcases scanned : scan feed finished first (octetsOf buffers) with
      ⟨q, kept, stop⟩
    obtain ⟨left, unread, consumed⟩ := consumePieces_scan consumes scanned
    rw [consumed]
    subst unread
    cases stop with
    | false => simp
    | true =>
        constructor
        · rintro ⟨p, others, same, rfl⟩
          rw [if_pos rfl] at same
          obtain ⟨rfl, rfl, refused⟩ : q = p ∧ left = others ∧
              failed q = true := by
            simpa using same
          exact ⟨q, rfl, by rw [refused]; rfl⟩
        · rintro ⟨p, same, refused⟩
          cases same
          rw [Bool.not_eq_false'] at refused
          exact ⟨q, left, by rw [if_pos rfl, refused], rfl⟩

end Parses

def storedAt (array : List UInt8) (writes : List (Nat × UInt8)) : List UInt8 :=
  writes.foldl (fun array write => array.set write.1 write.2) array

def fieldWrites (idx count : Nat) (octet : UInt8) : List (Nat × UInt8) :=
  (idx, octet) ::
    if (idx + 1) % 256 = count then [((idx + 1) % 256, 0)] else []

theorem storedAt_fieldWrites (array : List UInt8) (idx count : Nat)
    (octet : UInt8) :
    storedAt array (fieldWrites idx count octet) =
      if (idx + 1) % 256 = count then
        (array.set idx octet).set ((idx + 1) % 256) 0
      else array.set idx octet := by
  unfold fieldWrites
  split <;> rfl

theorem fieldWrites_within {idx count : Nat} {octet : UInt8}
    (before : idx < 256) :
    ∀ write ∈ fieldWrites idx count octet, write.1 < 256 := by
  intro write member
  rcases List.mem_cons.mp member with rfl | ending
  · exact before
  · split at ending
    · rw [List.mem_singleton.mp ending]
      exact Nat.mod_lt _ (by decide)
    · cases ending

structure HelloFields where
  methods : List UInt8
  counted : methods.length ≤ 255

def HelloFields.encode (m : HelloFields) : List UInt8 := helloMessage m.methods

structure HelloParser.Holds (p : HelloParser) (m : HelloFields) : Prop where
  state : p.state = .done
  hasNoauth : p.hasNoauth = m.methods.contains methodNoAuth
  hasUserpass : p.hasUserpass = m.methods.contains methodUserpass

def HelloParser.Live (p : HelloParser) : Prop :=
  p.state = .methods → 1 ≤ p.remaining ∧ p.remaining ≤ 255

theorem helloParserFeed_live (p : HelloParser) (octet : UInt8) (live : p.Live) :
    (helloParserFeed p octet).Live := by
  obtain ⟨state, remaining, hasNoauth, hasUserpass⟩ := p
  have small := octet.toNat_lt
  cases state with
  | version =>
      intro reading
      simp only [helloParserFeed] at reading
      split at reading <;> cases reading
  | nmethods =>
      intro reading
      simp only [helloParserFeed] at reading ⊢
      split at reading
      · cases reading
      next positive =>
        have nonzero : octet.toNat ≠ 0 :=
          fun zero => positive (UInt8.toNat_inj.mp zero)
        omega
  | methods =>
      intro reading
      obtain ⟨some, most⟩ := live rfl
      simp only [helloParserFeed] at reading some most ⊢
      split at reading
      · cases reading
      · omega
  | done => exact live
  | error => exact live

/-- The octets that the parser still needs, at most. -/
def HelloParser.distance (p : HelloParser) : Nat :=
  match p.state with
  | .version => 300
  | .nmethods => 299
  | _ => p.remaining

theorem helloParser_progress (p : HelloParser) (running : p.finished = false)
    (live : p.Live) :
    ∃ octet, (helloParserFeed p octet).finished = true ∧
        (!((helloParserFeed p octet).state == .error)) = true ∨
      (helloParserFeed p octet).finished = false ∧
        (helloParserFeed p octet).distance < p.distance := by
  obtain ⟨state, remaining, hasNoauth, hasUserpass⟩ := p
  cases state with
  | version => exact ⟨5, .inr ⟨rfl, Nat.lt_succ_self 299⟩⟩
  | nmethods => exact ⟨0, .inl ⟨rfl, rfl⟩⟩
  | methods =>
      obtain ⟨some, most⟩ := live rfl
      simp only at some most
      by_cases single : remaining = 1
      · subst single
        have ended :
            (helloParserFeed ⟨.methods, 1, hasNoauth, hasUserpass⟩ 0).state =
              .done := by
          simp [helloParserFeed]
        exact ⟨0,
          .inl ⟨by simp [HelloParser.finished, ended], by rw [ended]; rfl⟩⟩
      · have left : (remaining + 255) % 256 = remaining - 1 := by omega
        have more : ¬ remaining - 1 = 0 := by omega
        refine ⟨0, .inr ⟨?_, ?_⟩⟩
        · simp [helloParserFeed, left, more, HelloParser.finished]
        · simp only [helloParserFeed, left, more, if_false,
            HelloParser.distance]
          omega
  | done => cases running
  | error => cases running

theorem helloParser_recognises :
    Recognises helloParserFeed HelloParser.finished
      (fun p => !(p.state == .error))
      helloParserInit (Encoded HelloFields.encode) where
  complete := by
    rintro _ ⟨⟨methods, counted⟩, rfl⟩
    obtain ⟨remaining, scanned⟩ := @scan_helloMessage methods [] counted
    rw [List.append_nil] at scanned
    exact ⟨_, scanned, rfl⟩
  sound := by
    intro octets p scanned accepted
    have stopped := scan_stopped (by rfl) scanned
    have done : p.state = .done := by
      simp only [HelloParser.finished, Bool.or_eq_true, beq_iff_eq] at stopped
      simpa using stopped.resolve_right (by simpa using accepted)
    obtain ⟨methods, counted, split, -, -⟩ := helloMessage_of_scan scanned done
    rw [List.append_nil] at split
    exact ⟨⟨methods, counted⟩, split⟩
  alive := by
    intro octets p scanned
    have live := scan_invariant (fun q octet _ => helloParserFeed_live q octet)
      (by rfl) (fun reading => by cases reading) scanned
    exact promising_of_rank HelloParser.distance
      (fun q octet _ => helloParserFeed_live q octet) helloParser_progress
      (scan_stopped (by rfl) scanned) live

theorem helloParser_parses :
    Parses helloParserConsume helloParserInit HelloFields.encode
      HelloParser.Holds := by
  apply parses_of_recognises (fun _ _ => rfl) helloParser_recognises
  intro m rest
  obtain ⟨remaining, scanned⟩ := @scan_helloMessage m.methods rest m.counted
  exact ⟨_, scanned, rfl, rfl, rfl, rfl⟩

structure AuthFields where
  user : List UInt8
  pass : List UInt8
  validUser : FieldLength user
  validPass : FieldLength pass

def AuthFields.encode (m : AuthFields) : List UInt8 := authMessage m.user m.pass

def AuthParser.usernameWrites (p : AuthParser) (octet : UInt8) :
    List (Nat × UInt8) :=
  match p.state with
  | .uname => fieldWrites p.idx p.ulen octet
  | _ => []

def AuthParser.passwordWrites (p : AuthParser) (octet : UInt8) :
    List (Nat × UInt8) :=
  match p.state with
  | .passwd => fieldWrites p.idx p.plen octet
  | _ => []

theorem authParserFeed_writes (p : AuthParser) (octet : UInt8) :
    (authParserFeed p octet).username = storedAt p.username
      (p.usernameWrites octet) ∧
      (authParserFeed p octet).password =
        storedAt p.password (p.passwordWrites octet) := by
  obtain ⟨state, ulen, plen, idx, username, password⟩ := p
  cases state with
  | uname =>
      simp only [authParserFeed, AuthParser.usernameWrites,
        AuthParser.passwordWrites, storedAt_fieldWrites]
      split <;> exact ⟨rfl, rfl⟩
  | passwd =>
      simp only [authParserFeed, AuthParser.usernameWrites,
        AuthParser.passwordWrites, storedAt_fieldWrites]
      split <;> exact ⟨rfl, rfl⟩
  | _ => exact ⟨rfl, rfl⟩

def AuthParser.Live (p : AuthParser) : Prop :=
  match p.state with
  | .uname => p.idx < p.ulen ∧ p.ulen ≤ 255
  | .passwd => p.idx < p.plen ∧ p.plen ≤ 255
  | _ => True

theorem authParserFeed_live (p : AuthParser) (octet : UInt8) (live : p.Live) :
    (authParserFeed p octet).Live := by
  obtain ⟨state, ulen, plen, idx, username, password⟩ := p
  have small := octet.toNat_lt
  have positive (given : ¬ octet = 0) : 0 < octet.toNat :=
    Nat.pos_of_ne_zero fun zero => given (UInt8.toNat_inj.mp zero)
  cases state with
  | version =>
      simp only [authParserFeed]
      split <;> trivial
  | ulen =>
      simp only [authParserFeed]
      split
      · trivial
      next given => exact ⟨positive given, Nat.le_of_lt_succ small⟩
  | uname =>
      obtain ⟨before, most⟩ : idx < ulen ∧ ulen ≤ 255 := live
      simp only [authParserFeed]
      split
      · trivial
      · change (idx + 1) % 256 < ulen ∧ ulen ≤ 255
        omega
  | plen =>
      simp only [authParserFeed]
      split
      · trivial
      next given => exact ⟨positive given, Nat.le_of_lt_succ small⟩
  | passwd =>
      obtain ⟨before, most⟩ : idx < plen ∧ plen ≤ 255 := live
      simp only [authParserFeed]
      split
      · trivial
      · change (idx + 1) % 256 < plen ∧ plen ≤ 255
        omega
  | done => exact live
  | error => exact live

theorem AuthParser.Live.writes_within {p : AuthParser} (live : p.Live)
    (octet : UInt8) :
    ∀ write ∈ p.usernameWrites octet ++ p.passwordWrites octet,
      write.1 < 256 := by
  obtain ⟨state, ulen, plen, idx, username, password⟩ := p
  cases state with
  | uname =>
      obtain ⟨before, most⟩ : idx < ulen ∧ ulen ≤ 255 := live
      have within := @fieldWrites_within idx ulen octet (by omega)
      simpa [AuthParser.usernameWrites, AuthParser.passwordWrites] using within
  | passwd =>
      obtain ⟨before, most⟩ : idx < plen ∧ plen ≤ 255 := live
      have within := @fieldWrites_within idx plen octet (by omega)
      simpa [AuthParser.usernameWrites, AuthParser.passwordWrites] using within
  | _ => exact fun _ nothing => nomatch nothing

def AuthParser.distance (p : AuthParser) : Nat :=
  match p.state with
  | .version => 702
  | .ulen => 701
  | .uname => 300 + (p.ulen - p.idx)
  | .plen => 300
  | _ => p.plen - p.idx

theorem authParser_progress (p : AuthParser) (running : p.finished = false)
    (live : p.Live) :
    ∃ octet, (authParserFeed p octet).finished = true ∧
        (!((authParserFeed p octet).state == .error)) = true ∨
      (authParserFeed p octet).finished = false ∧
        (authParserFeed p octet).distance < p.distance := by
  obtain ⟨state, ulen, plen, idx, username, password⟩ := p
  cases state with
  | version => exact ⟨1, .inr ⟨rfl, Nat.lt_succ_self 701⟩⟩
  | ulen => exact ⟨1, .inr ⟨rfl, (by decide : 301 < 701)⟩⟩
  | uname =>
      obtain ⟨before, most⟩ : idx < ulen ∧ ulen ≤ 255 := live
      refine ⟨0, .inr ?_⟩
      simp only [authParserFeed]
      split
      · refine ⟨rfl, ?_⟩
        change 300 < 300 + (ulen - idx)
        omega
      · refine ⟨rfl, ?_⟩
        change 300 + (ulen - (idx + 1) % 256) < 300 + (ulen - idx)
        omega
  | plen => exact ⟨1, .inr ⟨rfl, (by decide : 1 < 300)⟩⟩
  | passwd =>
      obtain ⟨before, most⟩ : idx < plen ∧ plen ≤ 255 := live
      refine ⟨0, ?_⟩
      simp only [authParserFeed]
      split
      · exact .inl ⟨rfl, rfl⟩
      · refine .inr ⟨rfl, ?_⟩
        change plen - (idx + 1) % 256 < plen - idx
        omega
  | done => cases running
  | error => cases running

theorem authParser_live {p q : AuthParser} {octets rest : List UInt8}
    {stop : Bool}
    (scanned : scan authParserFeed AuthParser.finished
      (authParserInit p) octets =
        (q, rest, stop)) : q.Live :=
  scan_invariant (fun q octet _ => authParserFeed_live q octet) (by rfl)
    (show (authParserInit p).Live from trivial) scanned

theorem authParser_recognises {p : AuthParser} (roomy : p.Roomy) :
    Recognises authParserFeed AuthParser.finished
      (fun q => !(q.state == .error))
      (authParserInit p) (Encoded AuthFields.encode) where
  complete := by
    rintro _ ⟨m, rfl⟩
    obtain ⟨q, scanned, holds⟩ :=
      @scan_authMessage p m.user m.pass [] roomy m.validUser m.validPass
    rw [List.append_nil] at scanned
    exact ⟨q, scanned, by rw [holds.state]; rfl⟩
  sound := by
    intro octets q scanned accepted
    have stopped := scan_stopped (by rfl) scanned
    have done : q.state = .done := by
      simp only [AuthParser.finished, Bool.or_eq_true, beq_iff_eq] at stopped
      simpa using stopped.resolve_right (by simpa using accepted)
    obtain ⟨user, pass, validUser, validPass, split, -⟩ :=
      authFields_of_scan roomy scanned done
    rw [List.append_nil] at split
    exact ⟨⟨user, pass, validUser, validPass⟩, split⟩
  alive := by
    intro octets q scanned
    exact promising_of_rank AuthParser.distance
      (fun q octet _ => authParserFeed_live q octet) authParser_progress
      (scan_stopped (by rfl) scanned) (authParser_live scanned)

theorem authParser_parses {p : AuthParser} (roomy : p.Roomy) :
    Parses authParserConsume (authParserInit p) AuthFields.encode
      (fun q m => q.Holds m.user m.pass) := by
  apply parses_of_recognises (fun _ _ => rfl) (authParser_recognises roomy)
  intro m rest
  obtain ⟨q, scanned, holds⟩ :=
    @scan_authMessage p m.user m.pass rest roomy m.validUser m.validPass
  exact ⟨q, scanned, by rw [holds.state]; rfl, holds⟩

def RequestParser.addrWrites (p : RequestParser) (octet : UInt8) :
    List (Nat × UInt8) :=
  match p.state with
  | .daddrIpv4 | .daddrIpv6 => [(p.idx, octet)]
  | .daddrDomain => fieldWrites p.idx p.addrLen octet
  | _ => []

theorem requestParserFeed_writes (p : RequestParser) (octet : UInt8) :
    (requestParserFeed p octet).addr =
      storedAt p.addr (p.addrWrites octet) := by
  obtain ⟨state, cmd, atyp, addrLen, idx, addr, port, portIdx⟩ := p
  cases state with
  | atyp =>
      simp only [requestParserFeed]
      split
      · rfl
      · split
        · rfl
        · split <;> rfl
  | daddrIpv4 =>
      simp only [requestParserFeed]
      split <;> rfl
  | daddrDomain =>
      simp only [requestParserFeed, RequestParser.addrWrites,
        storedAt_fieldWrites]
      split <;> rfl
  | daddrIpv6 =>
      simp only [requestParserFeed]
      split <;> rfl
  | dport =>
      simp only [requestParserFeed]
      split <;> rfl
  | _ => rfl

def RequestParser.Live (p : RequestParser) : Prop :=
  match p.state with
  | .daddrIpv4 => p.idx < 4
  | .daddrIpv6 => p.idx < 16
  | .daddrDomain => p.idx < p.addrLen ∧ p.addrLen ≤ 255
  | .dport => p.portIdx < 2
  | _ => True

theorem requestParserFeed_live (p : RequestParser) (octet : UInt8)
    (live : p.Live) :
    (requestParserFeed p octet).Live := by
  obtain ⟨state, cmd, atyp, addrLen, idx, addr, port, portIdx⟩ := p
  have small := octet.toNat_lt
  cases state with
  | version =>
      simp only [requestParserFeed]
      split <;> trivial
  | cmd => trivial
  | rsv =>
      simp only [requestParserFeed]
      split <;> trivial
  | atyp =>
      simp only [requestParserFeed]
      split
      · exact Nat.succ_pos 3
      · split
        · exact Nat.succ_pos 15
        · split <;> trivial
  | daddrIpv4 =>
      have before : idx < 4 := live
      simp only [requestParserFeed]
      split
      · exact Nat.succ_pos 1
      · change (idx + 1) % 256 < 4
        omega
  | daddrDomainLen =>
      simp only [requestParserFeed]
      split
      · trivial
      next given =>
        have nonzero : octet.toNat ≠ 0 :=
          fun zero => given (UInt8.toNat_inj.mp zero)
        exact ⟨Nat.pos_of_ne_zero nonzero, Nat.le_of_lt_succ small⟩
  | daddrDomain =>
      obtain ⟨before, most⟩ : idx < addrLen ∧ addrLen ≤ 255 := live
      simp only [requestParserFeed]
      split
      · exact Nat.succ_pos 1
      · change (idx + 1) % 256 < addrLen ∧ addrLen ≤ 255
        omega
  | daddrIpv6 =>
      have before : idx < 16 := live
      simp only [requestParserFeed]
      split
      · exact Nat.succ_pos 1
      · change (idx + 1) % 256 < 16
        omega
  | dport =>
      have before : portIdx < 2 := live
      simp only [requestParserFeed]
      split
      · trivial
      · change (portIdx + 1) % 256 < 2
        omega
  | done => exact live
  | error => exact live

theorem RequestParser.Live.writes_within {p : RequestParser} (live : p.Live)
    (octet : UInt8) : ∀ write ∈ p.addrWrites octet, write.1 < 256 := by
  obtain ⟨state, cmd, atyp, addrLen, idx, addr, port, portIdx⟩ := p
  intro write member
  cases state with
  | daddrIpv4 =>
      have before : idx < 4 := live
      rw [List.mem_singleton.mp member]
      change idx < 256
      omega
  | daddrDomain =>
      obtain ⟨before, most⟩ : idx < addrLen ∧ addrLen ≤ 255 := live
      have inside : idx < 256 := by omega
      exact fieldWrites_within inside write member
  | daddrIpv6 =>
      have before : idx < 16 := live
      rw [List.mem_singleton.mp member]
      change idx < 256
      omega
  | _ => nomatch member

def RequestParser.distance (p : RequestParser) : Nat :=
  match p.state with
  | .version => 704
  | .cmd => 703
  | .rsv => 702
  | .atyp => 701
  | .daddrDomainLen => 700
  | .daddrIpv4 => 300 + (4 - p.idx)
  | .daddrIpv6 => 300 + (16 - p.idx)
  | .daddrDomain => 300 + (p.addrLen - p.idx)
  | _ => 2 - p.portIdx

theorem requestParser_progress (p : RequestParser)
    (running : p.finished = false) (live : p.Live) :
    ∃ octet, (requestParserFeed p octet).finished = true ∧
        (!((requestParserFeed p octet).state == .error)) = true ∨
      (requestParserFeed p octet).finished = false ∧
        (requestParserFeed p octet).distance < p.distance := by
  obtain ⟨state, cmd, atyp, addrLen, idx, addr, port, portIdx⟩ := p
  cases state with
  | version => exact ⟨5, .inr ⟨rfl, Nat.lt_succ_self 703⟩⟩
  | cmd => exact ⟨0, .inr ⟨rfl, Nat.lt_succ_self 702⟩⟩
  | rsv => exact ⟨0, .inr ⟨rfl, Nat.lt_succ_self 701⟩⟩
  | atyp => exact ⟨atypIpv4, .inr ⟨rfl, (by decide : 304 < 701)⟩⟩
  | daddrIpv4 =>
      have before : idx < 4 := live
      refine ⟨0, .inr ?_⟩
      simp only [requestParserFeed]
      split
      · refine ⟨rfl, ?_⟩
        change 2 < 300 + (4 - idx)
        omega
      · refine ⟨rfl, ?_⟩
        change 300 + (4 - (idx + 1) % 256) < 300 + (4 - idx)
        omega
  | daddrDomainLen => exact ⟨1, .inr ⟨rfl, (by decide : 301 < 700)⟩⟩
  | daddrDomain =>
      obtain ⟨before, most⟩ : idx < addrLen ∧ addrLen ≤ 255 := live
      refine ⟨0, .inr ?_⟩
      simp only [requestParserFeed]
      split
      · refine ⟨rfl, ?_⟩
        change 2 < 300 + (addrLen - idx)
        omega
      · refine ⟨rfl, ?_⟩
        change 300 + (addrLen - (idx + 1) % 256) < 300 + (addrLen - idx)
        omega
  | daddrIpv6 =>
      have before : idx < 16 := live
      refine ⟨0, .inr ?_⟩
      simp only [requestParserFeed]
      split
      · refine ⟨rfl, ?_⟩
        change 2 < 300 + (16 - idx)
        omega
      · refine ⟨rfl, ?_⟩
        change 300 + (16 - (idx + 1) % 256) < 300 + (16 - idx)
        omega
  | dport =>
      have before : portIdx < 2 := live
      refine ⟨0, ?_⟩
      simp only [requestParserFeed]
      split
      · exact .inl ⟨rfl, rfl⟩
      · refine .inr ⟨rfl, ?_⟩
        change 2 - (portIdx + 1) % 256 < 2 - portIdx
        omega
  | done => cases running
  | error => cases running

theorem requestParser_live {p q : RequestParser} {octets rest : List UInt8}
    {stop : Bool}
    (scanned : scan requestParserFeed RequestParser.finished
      (requestParserInit p)
      octets = (q, rest, stop)) : q.Live :=
  scan_invariant (fun q octet _ => requestParserFeed_live q octet) (by rfl)
    (show (requestParserInit p).Live from trivial) scanned

theorem requestParser_recognises {p : RequestParser} (roomy : p.Roomy) :
    Recognises requestParserFeed RequestParser.finished
      (fun q => !(q.state == .error)) (requestParserInit p)
      (Encoded SocksRequest.encode) where
  complete := by
    rintro _ ⟨r, rfl⟩
    obtain ⟨q, scanned, holds⟩ := scan_socksRequest roomy r []
    rw [List.append_nil] at scanned
    exact ⟨q, scanned, by rw [holds.state]; rfl⟩
  sound := by
    intro octets q scanned accepted
    have stopped := scan_stopped (by rfl) scanned
    have done : q.state = .done := by
      simp only [RequestParser.finished, Bool.or_eq_true, beq_iff_eq] at stopped
      simpa using stopped.resolve_right (by simpa using accepted)
    obtain ⟨r, split, -⟩ := socksRequest_of_scan roomy scanned done
    rw [List.append_nil] at split
    exact ⟨r, split⟩
  alive := by
    intro octets q scanned
    exact promising_of_rank RequestParser.distance
      (fun q octet _ => requestParserFeed_live q octet) requestParser_progress
      (scan_stopped (by rfl) scanned) (requestParser_live scanned)

theorem requestParser_parses {p : RequestParser} (roomy : p.Roomy) :
    Parses requestParserConsume (requestParserInit p) SocksRequest.encode
      RequestParser.Holds := by
  apply parses_of_recognises (fun _ _ => rfl) (requestParser_recognises roomy)
  intro r rest
  obtain ⟨q, scanned, holds⟩ := scan_socksRequest roomy r rest
  exact ⟨q, scanned, by rw [holds.state]; rfl, holds⟩

/-- Each parser accepts exactly its grammar, incrementally; a feed changes its
arrays by the writes that are listed, and no index of these reaches the size of
the array. -/
theorem parsers_exact :
    Parses helloParserConsume helloParserInit HelloFields.encode
      HelloParser.Holds ∧
    (∀ p : AuthParser, p.Roomy →
      Parses authParserConsume (authParserInit p) AuthFields.encode
        (fun q m => q.Holds m.user m.pass) ∧
      ∀ octets q octet, scan authParserFeed AuthParser.finished
        (authParserInit p)
        octets = (q, [], false) →
        (authParserFeed q octet).username =
            storedAt q.username (q.usernameWrites octet) ∧
          (authParserFeed q octet).password =
            storedAt q.password (q.passwordWrites octet) ∧
          ∀ write ∈ q.usernameWrites octet ++ q.passwordWrites octet,
            write.1 < 256) ∧
    (∀ p : RequestParser, p.Roomy →
      Parses requestParserConsume (requestParserInit p) SocksRequest.encode
        RequestParser.Holds ∧
      ∀ octets q octet, scan requestParserFeed RequestParser.finished
        (requestParserInit p) octets = (q, [], false) →
        (requestParserFeed q octet).addr =
          storedAt q.addr (q.addrWrites octet) ∧
          ∀ write ∈ q.addrWrites octet, write.1 < 256) := by
  refine ⟨helloParser_parses, fun p roomy => ⟨authParser_parses roomy, ?_⟩,
    fun p roomy => ⟨requestParser_parses roomy, ?_⟩⟩
  · intro octets q octet scanned
    obtain ⟨username, password⟩ := authParserFeed_writes q octet
    exact ⟨username, password, (authParser_live scanned).writes_within octet⟩
  · intro octets q octet scanned
    exact ⟨requestParserFeed_writes q octet,
      (requestParser_live scanned).writes_within octet⟩

theorem parsers_exact_blank :
    Parses authParserConsume
      (authParserInit ⟨.version, 0, 0, 0, List.replicate 256 0,
        List.replicate 256 0⟩)
      AuthFields.encode (fun q m => q.Holds m.user m.pass) ∧
    Parses requestParserConsume
      (requestParserInit ⟨.version, 0, 0, 0, 0, List.replicate 256 0, 0, 0⟩)
      SocksRequest.encode RequestParser.Holds :=
  ⟨(parsers_exact.2.1 _ ⟨List.length_replicate, List.length_replicate⟩).1,
    (parsers_exact.2.2 ⟨.version, 0, 0, 0, 0, List.replicate 256 0, 0, 0⟩
      List.length_replicate).1⟩

end SocksProxy
