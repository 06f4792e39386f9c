import SocksProxy.Pop3

/-! What the sniffer reports of a stream, line by line. -/

namespace SocksProxy

def lineFeed : UInt8 := 10
def carriageReturn : UInt8 := 13

/-- The longest line that the array holds together with its terminator. -/
def lineLimit : Nat := 511

def stripCr (line : List UInt8) : List UInt8 :=
  if line.getLast? = some carriageReturn then line.dropLast else line

/-- One line, with the name of the last USER line that no PASS line has used. -/
def reportLine (remembered : Option CString) (line : CString) :
    Option CString × List (CString × CString) :=
  if startsWith line "USER " then (some ((afterKeyword line).truncate 255), [])
  else if startsWith line "PASS " then
    (none, (remembered.map fun user => (user, afterKeyword line)).toList)
  else (remembered, [])

def reportLines : Option CString → List (List UInt8) →
    Option CString × List (CString × CString)
  | remembered, [] => (remembered, [])
  | remembered, line :: lines =>
      let (next, first) :=
        if line.length ≤ lineLimit then
          reportLine remembered (CString.ofArray (stripCr line))
        else (remembered, [])
      let (last, others) := reportLines next lines
      (last, first ++ others)

namespace Pop3Sniffer

def remembered (p : Pop3Sniffer) : Option CString :=
  if p.haveUser then some p.user else none

structure Ready (p : Pop3Sniffer) : Prop where
  line : p.line.length = 512
  len : p.len = 0
  overflow : p.overflow = false

end Pop3Sniffer

theorem pop3SnifferFeed_cons (p : Pop3Sniffer) (octet : UInt8)
    (rest : List UInt8) :
    pop3SnifferFeed p (octet :: rest) =
      ((pop3SnifferFeed (pop3SnifferFeedOctet p octet).1 rest).1,
        (pop3SnifferFeedOctet p octet).2 ++
          (pop3SnifferFeed (pop3SnifferFeedOctet p octet).1 rest).2) := rfl

theorem pop3SnifferFeed_append (p : Pop3Sniffer) (front rest : List UInt8) :
    pop3SnifferFeed p (front ++ rest) =
      ((pop3SnifferFeed (pop3SnifferFeed p front).1 rest).1,
        (pop3SnifferFeed p front).2 ++
          (pop3SnifferFeed (pop3SnifferFeed p front).1 rest).2) := by
  induction front generalizing p with
  | nil => rfl
  | cons octet front induction =>
      rw [List.cons_append, pop3SnifferFeed_cons, pop3SnifferFeed_cons,
        induction, List.append_assoc]

private theorem feed_overflowed {p : Pop3Sniffer} {octets : List UInt8}
    (overflow : p.overflow = true) (inside : lineFeed ∉ octets) :
    pop3SnifferFeed p octets = (p, []) := by
  induction octets with
  | nil => rfl
  | cons octet octets induction =>
      rw [List.mem_cons, not_or] at inside
      have apart : ¬ octet = 10 := fun same => inside.1 same.symm
      have fed : pop3SnifferFeedOctet p octet = (p, []) := by
        simp [pop3SnifferFeedOctet, apart, overflow]
      rw [pop3SnifferFeed, fed]
      dsimp only
      rw [induction inside.2]
      rfl

private def holding (p : Pop3Sniffer) (stored tail : List UInt8) :
    Pop3Sniffer :=
  { p with line := stored ++ tail, len := stored.length, overflow := false }

private theorem feed_holding {p : Pop3Sniffer} {octets stored tail : List UInt8}
    (inside : lineFeed ∉ octets)
    (fits : stored.length + octets.length ≤ lineLimit)
    (room : octets.length ≤ tail.length) :
    pop3SnifferFeed (holding p stored tail) octets =
      (holding p (stored ++ octets) (tail.drop octets.length), []) := by
  induction octets generalizing stored tail with
  | nil => simp [pop3SnifferFeed]
  | cons octet octets induction =>
      rw [List.mem_cons, not_or] at inside
      rw [List.length_cons] at fits room
      have apart : ¬ octet = 10 := fun same => inside.1 same.symm
      cases tail with
      | nil => exact absurd room (Nat.not_succ_le_zero _)
      | cons old tail =>
          have free : stored.length < 511 := by
            unfold lineLimit at fits
            omega
          have fed :
              pop3SnifferFeedOctet (holding p stored (old :: tail)) octet =
                (holding p (stored ++ [octet]) tail, []) := by
            simp [pop3SnifferFeedOctet, apart, holding, free]
          rw [pop3SnifferFeed, fed]
          dsimp only
          rw [induction inside.2 (by simp; omega) (by simpa using room)]
          simp

/-- A line that is too long stops the sniffer until its end. -/
private theorem feed_overlong {p : Pop3Sniffer} {front rest tail : List UInt8}
    {octet : UInt8} (inside : lineFeed ∉ front ++ octet :: rest)
    (full : front.length = lineLimit) (room : front.length ≤ tail.length) :
    pop3SnifferFeed (holding p [] tail) (front ++ octet :: rest) =
      ({ holding p front (tail.drop front.length) with overflow := true },
        []) := by
  rw [List.mem_append, List.mem_cons, not_or, not_or] at inside
  obtain ⟨before, here, after⟩ := inside
  have apart : ¬ octet = 10 := fun same => here same.symm
  have filled := @feed_holding p front [] tail before (by simp [full]) room
  have stuck :
      pop3SnifferFeedOctet (holding p front (tail.drop front.length)) octet =
        ({ holding p front (tail.drop front.length) with overflow := true },
          []) := by
    have most : ¬ front.length < 511 := by
      rw [full]
      decide
    simp [pop3SnifferFeedOctet, apart, most, holding]
  rw [pop3SnifferFeed_append, filled, List.nil_append, pop3SnifferFeed_cons,
    stuck, feed_overflowed rfl after]
  rfl

private theorem ready_eq {p : Pop3Sniffer} (ready : p.Ready) :
    p = holding p [] p.line := by
  obtain ⟨line, len, overflow, user, haveUser⟩ := p
  obtain ⟨-, rfl, rfl⟩ := ready
  rfl

private def lineEnd (p : Pop3Sniffer) : Nat :=
  if p.len > 0 ∧ p.line[p.len - 1]? = some 13 then p.len - 1 else p.len

private def ended (p : Pop3Sniffer) : Pop3Sniffer :=
  { p with line := p.line.set (lineEnd p) 0 }

private theorem feed_lineFeed (p : Pop3Sniffer) :
    pop3SnifferFeedOctet p lineFeed =
      let processed :=
        if p.overflow then (ended p, []) else processLine (ended p)
      ({ processed.1 with len := 0, overflow := false }, processed.2) := rfl

private theorem ofArray_set_length {line tail : List UInt8} (room : tail ≠ []) :
    CString.ofArray ((line ++ tail).set line.length 0) =
      CString.ofArray line := by
  obtain ⟨old, tail, rfl⟩ := List.exists_cons_of_ne_nil room
  rw [List.set_append_right _ _ (Nat.le_refl _), Nat.sub_self,
    List.set_cons_zero, CString.ofArray_append_nul]

/-- The terminator that is stored cuts the carriage return off. -/
private theorem ofArray_ended {p : Pop3Sniffer} {line tail : List UInt8}
    (room : tail ≠ []) :
    CString.ofArray (ended (holding p line tail)).line =
      CString.ofArray (stripCr line) := by
  unfold ended lineEnd holding
  dsimp only
  rcases List.eq_nil_or_concat line with rfl | ⟨front, last, rfl⟩
  · exact ofArray_set_length room
  · rw [List.concat_eq_append]
    have position : (front ++ [last] ++ tail)[(front ++ [last]).length - 1]? =
        some last := by
      simp
    rw [position]
    by_cases ends : last = carriageReturn
    · subst ends
      have stripped : stripCr (front ++ [carriageReturn]) = front := by
        simp [stripCr]
      rw [if_pos ⟨by simp, rfl⟩, stripped, List.append_assoc]
      simpa using @ofArray_set_length front ([carriageReturn] ++ tail) (by simp)
    · have stripped : stripCr (front ++ [last]) = front ++ [last] := by
        simp [stripCr, ends]
      have other :
          ¬ ((front ++ [last]).length > 0 ∧ some last = some (13 : UInt8)) := by
        rintro ⟨-, same⟩
        exact ends (Option.some.inj same)
      rw [if_neg other, stripped]
      exact ofArray_set_length room

private theorem processLine_eq (p : Pop3Sniffer) :
    (processLine p).2 = (reportLine p.remembered (CString.ofArray p.line)).2 ∧
      (processLine p).1.remembered =
        (reportLine p.remembered (CString.ofArray p.line)).1 ∧
      (processLine p).1.line = p.line := by
  unfold processLine reportLine
  dsimp only
  split
  · exact ⟨rfl, rfl, rfl⟩
  · by_cases pass : startsWith (CString.ofArray p.line) "PASS " = true
    · cases have_ : p.haveUser <;> simp [Pop3Sniffer.remembered, pass, have_]
    · simp [pass]

private theorem feed_line_end {p : Pop3Sniffer} {line tail : List UInt8}
    (size : line.length + tail.length = 512) (fits : line.length ≤ lineLimit) :
    ∃ q, pop3SnifferFeedOctet (holding p line tail) lineFeed =
        (q, (reportLine p.remembered (CString.ofArray (stripCr line))).2) ∧
      q.Ready ∧
      q.remembered =
        (reportLine p.remembered (CString.ofArray (stripCr line))).1 := by
  have room : tail ≠ [] := by
    rintro rfl
    unfold lineLimit at fits
    simp at size
    omega
  obtain ⟨reports, remembers, kept⟩ :=
    processLine_eq (ended (holding p line tail))
  rw [ofArray_ended room] at reports remembers
  refine ⟨{ (processLine (ended (holding p line tail))).1 with
    len := 0, overflow := false }, ?_, ⟨?_, rfl, rfl⟩, remembers⟩
  · rw [feed_lineFeed]
    exact Prod.ext rfl reports
  · change (processLine (ended (holding p line tail))).1.line.length = 512
    rw [kept]
    simpa [ended, holding] using size

theorem feed_line {p : Pop3Sniffer} {line : List UInt8} (ready : p.Ready)
    (inside : lineFeed ∉ line) :
    ∃ q, pop3SnifferFeed p (line ++ [lineFeed]) =
        (q, (reportLines p.remembered [line]).2) ∧
      q.Ready ∧ q.remembered = (reportLines p.remembered [line]).1 := by
  have size := ready.line
  rw [ready_eq ready, pop3SnifferFeed_append]
  by_cases fits : line.length ≤ lineLimit
  · have room : line.length ≤ p.line.length := by
      unfold lineLimit at fits
      omega
    have filled :=
      @feed_holding p line [] p.line inside (by simpa using fits) room
    obtain ⟨q, fed, again, remembers⟩ :=
      @feed_line_end p line (p.line.drop line.length)
      (by rw [List.length_drop]; omega) fits
    rw [filled, List.nil_append, pop3SnifferFeed_cons, fed]
    have reported : reportLines p.remembered [line] =
        reportLine p.remembered (CString.ofArray (stripCr line)) := by
      simp [reportLines, fits]
    refine ⟨q, ?_, again, ?_⟩
    · change _ = (q, (reportLines p.remembered [line]).2)
      rw [reported]
      simp [pop3SnifferFeed]
    · change _ = (reportLines p.remembered [line]).1
      rw [reported, remembers]
  · have split := List.take_append_drop lineLimit line
    have counted : (line.take lineLimit).length = lineLimit :=
      List.length_take_of_le (by omega)
    obtain ⟨octet, rest, dropped⟩ : ∃ octet rest, line.drop lineLimit =
        octet :: rest := by
      cases dropped : line.drop lineLimit with
      | nil =>
          rw [List.drop_eq_nil_iff] at dropped
          exact absurd dropped fits
      | cons octet rest => exact ⟨octet, rest, rfl⟩
    rw [dropped] at split
    have stopped := @feed_overlong p (line.take lineLimit) rest p.line octet
      (by rw [split]; exact inside) counted (by rw [counted, size]; decide)
    rw [split] at stopped
    rw [stopped, pop3SnifferFeed_cons, feed_lineFeed]
    have reported : reportLines p.remembered [line] = (p.remembered, []) := by
      simp [reportLines, fits]
    refine ⟨_, Prod.ext rfl ?_, ⟨?_, rfl, rfl⟩, ?_⟩
    · change [] = (reportLines p.remembered [line]).2
      rw [reported]
    · change (List.set (line.take lineLimit ++ _) _ _).length = 512
      rw [List.length_set, List.length_append, List.length_drop, counted, size]
      rfl
    · change p.remembered = (reportLines p.remembered [line]).1
      rw [reported]

theorem reportLines_cons (remembered : Option CString) (line : List UInt8)
    (lines : List (List UInt8)) :
    reportLines remembered (line :: lines) =
      ((reportLines (reportLines remembered [line]).1 lines).1,
        (reportLines remembered [line]).2 ++
          (reportLines (reportLines remembered [line]).1 lines).2) := by
  simp [reportLines]

private theorem reports_inside (p : Pop3Sniffer) {octets : List UInt8}
    (inside : lineFeed ∉ octets) : (pop3SnifferFeed p octets).2 = [] := by
  induction octets generalizing p with
  | nil => rfl
  | cons octet octets induction =>
      rw [List.mem_cons, not_or] at inside
      have apart : ¬ octet = 10 := fun same => inside.1 same.symm
      rw [pop3SnifferFeed_cons, induction _ inside.2]
      unfold pop3SnifferFeedOctet
      rw [if_neg apart]
      split
      · rfl
      · split <;> rfl

/-- A stream of lines with the beginning of another, in any state between lines:
the reports are those of the lines. -/
theorem reports_of_lines {p : Pop3Sniffer} {lines : List (List UInt8)}
    {tail : List UInt8} (ready : p.Ready)
    (inside : ∀ line ∈ lines, lineFeed ∉ line) (last : lineFeed ∉ tail) :
    (pop3SnifferFeed p (lines.flatMap (· ++ [lineFeed]) ++ tail)).2 =
      (reportLines p.remembered lines).2 := by
  induction lines generalizing p with
  | nil =>
      exact reports_inside p last
  | cons line lines induction =>
      obtain ⟨q, fed, again, remembers⟩ :=
        feed_line ready (inside line (by simp))
      rw [List.flatMap_cons, List.append_assoc, pop3SnifferFeed_append, fed,
        reportLines_cons p.remembered line lines]
      dsimp only
      rw [induction again fun other member => inside other (by simp [member]),
        remembers]

def pop3SnifferFeeds (p : Pop3Sniffer) :
    List (List UInt8) → Pop3Sniffer × List (CString × CString)
  | [] => (p, [])
  | data :: chunks =>
      let (p, first) := pop3SnifferFeed p data
      let (p, others) := pop3SnifferFeeds p chunks
      (p, first ++ others)

/-- The lines of a stream that fit, without their ends and cut at their first
NUL. -/
def pop3Lines (stream : List UInt8) : List CString :=
  ((stream.splitOn lineFeed).dropLast.filter fun line =>
    line.length ≤ lineLimit).map fun line => CString.ofArray (stripCr line)

/-- The credentials of the lines, when a USER line may be pending. -/
def pop3Credentials : Option CString → List CString → List (CString × CString)
  | _, [] => []
  | pending, line :: lines =>
      if startsWith line "USER " then
        pop3Credentials (some ((afterKeyword line).truncate 255)) lines
      else
        match pending with
        | none => pop3Credentials none lines
        | some user =>
            if startsWith line "PASS " then
              (user, afterKeyword line) :: pop3Credentials none lines
            else pop3Credentials (some user) lines

theorem pop3SnifferFeeds_eq (p : Pop3Sniffer) (chunks : List (List UInt8)) :
    pop3SnifferFeeds p chunks = pop3SnifferFeed p chunks.flatten := by
  induction chunks generalizing p with
  | nil => rfl
  | cons data chunks induction =>
      rw [pop3SnifferFeeds, List.flatten_cons, pop3SnifferFeed_append]
      dsimp only
      rw [induction]

private theorem cut_stream (stream : List UInt8) :
    ∃ lines tail, stream = lines.flatMap (· ++ [lineFeed]) ++ tail ∧
      (∀ line ∈ lines, lineFeed ∉ line) ∧ lineFeed ∉ tail ∧
      (stream.splitOn lineFeed).dropLast = lines := by
  generalize size : stream.length = count
  induction count using Nat.strong_induction_on generalizing stream with
  | _ count induction =>
      by_cases ends : lineFeed ∈ stream
      · obtain ⟨line, rest, rfl, inside⟩ := List.eq_append_cons_of_mem ends
        have shorter : rest.length < count := by
          rw [← size, List.length_append, List.length_cons]
          omega
        obtain ⟨lines, tail, whole, insides, last, cut⟩ :=
          induction _ shorter rest rfl
        refine ⟨line :: lines, tail, ?_, ?_, last, ?_⟩
        · rw [whole, List.flatMap_cons, List.append_assoc, List.append_assoc]
          rfl
        · intro other member
          rcases List.mem_cons.mp member with rfl | member
          · exact inside
          · exact insides other member
        · rw [List.splitOn_append_cons_self_of_not_mem inside,
            List.dropLast_cons_of_ne_nil, cut]
          exact List.splitOn_ne_nil _ _
      · refine ⟨[], stream, rfl, by simp, ends, ?_⟩
        rw [List.splitOn_eq_singleton ends]
        rfl

private theorem reportLines_eq (pending : Option CString)
    (lines : List (List UInt8)) :
    (reportLines pending lines).2 =
      pop3Credentials pending
        ((lines.filter fun line => line.length ≤ lineLimit).map
        fun line => CString.ofArray (stripCr line)) := by
  induction lines generalizing pending with
  | nil => rfl
  | cons line lines induction =>
      by_cases fits : line.length ≤ lineLimit
      · have kept : decide (line.length ≤ lineLimit) = true :=
          decide_eq_true fits
        rw [List.filter_cons, if_pos kept, List.map_cons,
          pop3Credentials.eq_def, reportLines, if_pos fits]
        dsimp only
        rw [induction]
        generalize CString.ofArray (stripCr line) = line
        unfold reportLine
        split
        · rfl
        · cases pending with
          | none => split <;> rfl
          | some user => split <;> rfl
      · have dropped : ¬ decide (line.length ≤ lineLimit) = true := by
          simpa using fits
        rw [List.filter_cons, if_neg dropped, reportLines, if_neg fits]
        dsimp only
        rw [induction, List.nil_append]

/-- The indices of `line` that a round of the loop stores to. -/
def lineStores (p : Pop3Sniffer) (c : UInt8) : List Nat :=
  if c = 10 then
    [if p.len > 0 ∧ p.line[p.len - 1]? = some 13 then p.len - 1 else p.len]
  else if p.overflow then []
  else if p.len < 511 then [p.len]
  else []

namespace Pop3Sniffer

structure Bounded (p : Pop3Sniffer) : Prop where
  line : p.line.length = 512
  len : p.len ≤ lineLimit
  user : p.user.strlen ≤ 255

end Pop3Sniffer

private theorem processLine_bounded {p : Pop3Sniffer}
    (user : p.user.strlen ≤ 255) :
    (processLine p).1.user.strlen ≤ 255 := by
  unfold processLine
  dsimp only
  split
  · exact List.length_take_le 255 _
  · split <;> exact user

theorem bounded_octet {p : Pop3Sniffer} (bounded : p.Bounded) (c : UInt8) :
    (pop3SnifferFeedOctet p c).1.Bounded := by
  obtain ⟨line, len, user⟩ := bounded
  unfold pop3SnifferFeedOctet
  split
  · dsimp only
    split
    · exact ⟨by rw [List.length_set, line], Nat.zero_le _, user⟩
    · refine ⟨?_, Nat.zero_le _, processLine_bounded user⟩
      dsimp only
      rw [(processLine_eq _).2.2, List.length_set, line]
  · split
    · exact ⟨line, len, user⟩
    · split
      · next room => exact ⟨by rw [List.length_set, line], room, user⟩
      · exact ⟨line, len, user⟩

theorem bounded_feed {p : Pop3Sniffer} (bounded : p.Bounded)
    (octets : List UInt8) :
    (pop3SnifferFeed p octets).1.Bounded := by
  induction octets generalizing p with
  | nil => exact bounded
  | cons octet octets induction => exact induction (bounded_octet bounded octet)

theorem lineStores_lt {p : Pop3Sniffer} (bounded : p.Bounded) {c : UInt8}
    {i : Nat} (stores : i ∈ lineStores p c) : i < 512 := by
  have len := bounded.len
  unfold lineLimit at len
  unfold lineStores at stores
  split at stores
  · rw [List.mem_singleton] at stores
    subst stores
    split <;> omega
  · split at stores
    · cases stores
    · split at stores
      · rw [List.mem_singleton] at stores
        omega
      · cases stores

/-- The other elements of `line` stay as they are. -/
theorem line_unstored {p : Pop3Sniffer} {c : UInt8} {i : Nat}
    (apart : i ∉ lineStores p c) :
    (pop3SnifferFeedOctet p c).1.line[i]? = p.line[i]? := by
  unfold lineStores at apart
  unfold pop3SnifferFeedOctet
  split at apart
  · next ends =>
      rw [List.mem_singleton] at apart
      rw [if_pos ends]
      dsimp only
      split
      · exact List.getElem?_set_ne fun same => apart same.symm
      · rw [(processLine_eq _).2.2]
        exact List.getElem?_set_ne fun same => apart same.symm
  · next inside =>
      rw [if_neg inside]
      split at apart
      · next overflow => rw [if_pos overflow]
      · next going =>
          rw [if_neg going]
          split at apart
          · next room =>
              rw [List.mem_singleton] at apart
              rw [if_pos room]
              exact List.getElem?_set_ne fun same => apart same.symm
          · next full => rw [if_neg full]

private theorem lines_overlong {overlong rest : List UInt8}
    (inside : lineFeed ∉ overlong) (long : lineLimit < overlong.length)
    (pieces : List (List UInt8)) :
    ((pieces ++ (overlong ++ lineFeed :: rest).splitOn lineFeed).dropLast.filter
      fun line => line.length ≤ lineLimit) =
    (pieces ++ rest.splitOn lineFeed).dropLast.filter fun line =>
      line.length ≤ lineLimit := by
  have dropped : ¬ decide (overlong.length ≤ lineLimit) = true := by
    simpa using long
  rw [List.splitOn_append_cons_self_of_not_mem inside,
    List.dropLast_append_of_ne_nil (List.cons_ne_nil _ _),
    List.dropLast_append_of_ne_nil (List.splitOn_ne_nil _ _),
    List.dropLast_cons_of_ne_nil (List.splitOn_ne_nil _ _), List.filter_append,
    List.filter_append, List.filter_cons, if_neg dropped]

theorem pop3Lines_overlong {front overlong rest : List UInt8}
    (start : front = [] ∨ ∃ lines, front = lines ++ [lineFeed])
    (inside : lineFeed ∉ overlong) (long : lineLimit < overlong.length) :
    pop3Lines (front ++ (overlong ++ lineFeed :: rest)) =
      pop3Lines (front ++ rest) := by
  unfold pop3Lines
  rcases start with rfl | ⟨lines, rfl⟩
  · exact congrArg _ (lines_overlong inside long [])
  · rw [List.append_assoc, List.append_assoc, List.singleton_append,
      List.singleton_append, List.splitOn_append_cons_self lines,
      List.splitOn_append_cons_self lines, lines_overlong inside long]

/-- The reports of successive calls are the credentials in the whole stream,
every store is inside its array, and an overlong line changes nothing about the
others. -/
theorem sniffer_exact {p : Pop3Sniffer} (allocated : p.line.length = 512) :
    (∀ chunks, (pop3SnifferFeeds (pop3SnifferInit p) chunks).2 =
      pop3Credentials none (pop3Lines chunks.flatten)) ∧
    (∀ chunks,
      (pop3SnifferFeeds (pop3SnifferInit p) chunks).1.line.length = 512 ∧
      (pop3SnifferFeeds (pop3SnifferInit p) chunks).1.user.strlen < 256 ∧
      ∀ c,
        (∀ i ∈ lineStores (pop3SnifferFeeds (pop3SnifferInit p) chunks).1 c,
        i < 512) ∧
        ∀ i ∉ lineStores (pop3SnifferFeeds (pop3SnifferInit p) chunks).1 c,
          (pop3SnifferFeedOctet (pop3SnifferFeeds (pop3SnifferInit p) chunks).1
            c).1.line[i]? =
              (pop3SnifferFeeds (pop3SnifferInit p) chunks).1.line[i]?) ∧
    ∀ front overlong rest, (front = [] ∨ ∃ lines, front = lines ++ [lineFeed]) →
      lineFeed ∉ overlong → lineLimit < overlong.length →
      (pop3SnifferFeed (pop3SnifferInit p)
        (front ++ (overlong ++ lineFeed :: rest))).2 =
          (pop3SnifferFeed (pop3SnifferInit p) (front ++ rest)).2 := by
  have reports (stream : List UInt8) :
      (pop3SnifferFeed (pop3SnifferInit p) stream).2 =
        pop3Credentials none (pop3Lines stream) := by
    obtain ⟨lines, tail, whole, inside, last, cut⟩ := cut_stream stream
    have ready : (pop3SnifferInit p).Ready := ⟨allocated, rfl, rfl⟩
    calc (pop3SnifferFeed (pop3SnifferInit p) stream).2
        = (reportLines none lines).2 := by
          rw [whole]
          exact reports_of_lines ready inside last
      _ = pop3Credentials none (pop3Lines stream) := by
          rw [reportLines_eq, pop3Lines, cut]
  have bounded : (pop3SnifferInit p).Bounded :=
    ⟨allocated, Nat.zero_le _, Nat.zero_le _⟩
  refine ⟨?_, ?_, ?_⟩
  · intro chunks
    rw [pop3SnifferFeeds_eq]
    exact reports _
  · intro chunks
    rw [pop3SnifferFeeds_eq]
    have after := bounded_feed bounded chunks.flatten
    exact ⟨after.line, Nat.lt_succ_of_le after.user, fun c =>
      ⟨fun i stores => lineStores_lt after stores, fun i apart =>
        line_unstored apart⟩⟩
  · intro front overlong rest start inside long
    rw [reports, reports, pop3Lines_overlong start inside long]

/-- A line of 512 octets, cut in the middle, and then credentials. -/
theorem sniffer_exact_overlong :
    (pop3SnifferFeeds
      (pop3SnifferInit ⟨List.replicate 512 255, 7, true, .ofString "x", true⟩)
      [List.replicate 300 65, List.replicate 212 65 ++
        [10, 85, 115, 69, 114, 32, 97, 13],
        [10, 80, 65, 83, 83, 32, 98, 10, 80]]).2 =
          [(.ofString "a", .ofString "b")] := by
  rw [(sniffer_exact List.length_replicate).1]
  decide +kernel

end SocksProxy
