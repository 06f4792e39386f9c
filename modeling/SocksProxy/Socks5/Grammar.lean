import SocksProxy.Lib.Recogniser
import SocksProxy.Socks5.Messages

/-! The grammars of the three client messages, and that the parsers of
`socks5_parsers.c` recognise exactly these. -/

namespace SocksProxy

open Scanner

def AddressFor (atyp : UInt8) (address : List UInt8) : Prop :=
  atyp = atypIpv4 ∧ address.length = 4 ∨ atyp = atypIpv6 ∧ address.length = 16 ∨
    atyp = atypDomain ∧ FieldLength address

/-- A well-formed request; the port is in network order. -/
structure SocksRequest where
  cmd : UInt8
  atyp : UInt8
  address : List UInt8
  high : UInt8
  low : UInt8
  sized : AddressFor atyp address

namespace SocksRequest

def port (r : SocksRequest) : Nat := r.high.toNat * 256 + r.low.toNat

/-- VER CMD RSV ATYP DST.ADDR DST.PORT. -/
def encode (r : SocksRequest) : List UInt8 :=
  [0x05, r.cmd, 0x00, r.atyp] ++
    ((if r.atyp = atypDomain then r.address.length.toUInt8 :: r.address
      else r.address) ++ [r.high, r.low])

end SocksRequest

/-- The address array holds a name of any length together with its
terminator. -/
def RequestParser.Roomy (p : RequestParser) : Prop := p.addr.length = 256

structure RequestParser.Holds (p : RequestParser) (r : SocksRequest) :
    Prop where
  state : p.state = .done
  cmd : p.cmd = r.cmd
  atyp : p.atyp = r.atyp
  addrLen : p.addrLen = r.address.length
  port : p.port = r.port
  addr : ∃ tail, p.addr = r.address ++ tail ∧
    (r.atyp = atypDomain → tail.head? = some 0)

private abbrev scanRequest := scan requestParserFeed RequestParser.finished

private def addressLoop (st : RequestState) (p : RequestParser)
    (array : List UInt8) (idx : Nat) : RequestParser :=
  { p with state := st, addr := array, idx := idx }

private def addressDone (p : RequestParser) (count : Nat) (array : List UInt8) :
    RequestParser :=
  { p with state := .dport, addr := array, idx := count, portIdx := 0 }

section Steps

variable (p : RequestParser) (array : List UInt8) (idx : Nat) (octet : UInt8)

private theorem feed_ipv4_more (before : idx + 1 < 4) :
    requestParserFeed (addressLoop .daddrIpv4 p array idx) octet =
      addressLoop .daddrIpv4 p (array.set idx octet) (idx + 1) := by
  have next : (idx + 1) % 256 = idx + 1 := Nat.mod_eq_of_lt (by omega)
  have apart : ¬ idx + 1 = 4 := by omega
  simp only [requestParserFeed, addressLoop, next, apart, if_false]

private theorem feed_ipv4_ends (full : idx + 1 = 4) :
    requestParserFeed (addressLoop .daddrIpv4 p array idx) octet =
      addressDone p 4 (array.set idx octet) := by
  have next : (idx + 1) % 256 = 4 := by omega
  simp only [requestParserFeed, addressLoop, addressDone, next, if_true]

private theorem feed_ipv6_more (before : idx + 1 < 16) :
    requestParserFeed (addressLoop .daddrIpv6 p array idx) octet =
      addressLoop .daddrIpv6 p (array.set idx octet) (idx + 1) := by
  have next : (idx + 1) % 256 = idx + 1 := Nat.mod_eq_of_lt (by omega)
  have apart : ¬ idx + 1 = 16 := by omega
  simp only [requestParserFeed, addressLoop, next, apart, if_false]

private theorem feed_ipv6_ends (full : idx + 1 = 16) :
    requestParserFeed (addressLoop .daddrIpv6 p array idx) octet =
      addressDone p 16 (array.set idx octet) := by
  have next : (idx + 1) % 256 = 16 := by omega
  simp only [requestParserFeed, addressLoop, addressDone, next, if_true]

variable (small : p.addrLen ≤ 255)

include small

private theorem feed_domain_more (before : idx + 1 < p.addrLen) :
    requestParserFeed (addressLoop .daddrDomain p array idx) octet =
      addressLoop .daddrDomain p (array.set idx octet) (idx + 1) := by
  have next : (idx + 1) % 256 = idx + 1 := Nat.mod_eq_of_lt (by omega)
  have apart : ¬ idx + 1 = p.addrLen := by omega
  simp only [requestParserFeed, addressLoop, next, apart, if_false]

private theorem feed_domain_ends (full : idx + 1 = p.addrLen) :
    requestParserFeed (addressLoop .daddrDomain p array idx) octet =
      addressDone p p.addrLen ((array.set idx octet).set p.addrLen 0) := by
  have next : (idx + 1) % 256 = p.addrLen := by omega
  simp only [requestParserFeed, addressLoop, addressDone, next, if_true]

end Steps

private def typed (p : RequestParser) (st : RequestState) (cmd atyp : UInt8)
    (addrLen : Nat) : RequestParser :=
  { requestParserInit p with
    state := st, cmd := cmd, atyp := atyp, addrLen := addrLen }

private theorem scan_head (p : RequestParser) (cmd atyp : UInt8)
    (tokens : List UInt8) :
    scanRequest (requestParserInit p) (0x05 :: cmd :: 0x00 :: atyp :: tokens) =
      scanRequest { requestParserInit p with state := .atyp, cmd := cmd }
        (atyp :: tokens) := by
  rw [scanRequest, scan_cons_more (by rfl), scan_cons_more (by rfl),
    scan_cons_more (by rfl)]
  rfl

private theorem scan_ipv4 (p : RequestParser) (cmd : UInt8)
    (tokens : List UInt8) :
    scanRequest (requestParserInit p)
      (0x05 :: cmd :: 0x00 :: atypIpv4 :: tokens) =
        scanRequest
          (addressLoop .daddrIpv4 (typed p .daddrIpv4 cmd atypIpv4 4) p.addr 0)
        tokens := by
  rw [scan_head, scanRequest, scan_cons_more (by rfl)]
  rfl

private theorem scan_ipv6 (p : RequestParser) (cmd : UInt8)
    (tokens : List UInt8) :
    scanRequest (requestParserInit p)
      (0x05 :: cmd :: 0x00 :: atypIpv6 :: tokens) =
        scanRequest
          (addressLoop .daddrIpv6 (typed p .daddrIpv6 cmd atypIpv6 16) p.addr 0)
        tokens := by
  rw [scan_head, scanRequest, scan_cons_more (by rfl)]
  rfl

private theorem scan_domain (p : RequestParser) (cmd : UInt8)
    (tokens : List UInt8) {count : UInt8} (positive : count ≠ 0) :
    scanRequest (requestParserInit p)
        (0x05 :: cmd :: 0x00 :: atypDomain :: count :: tokens) =
      scanRequest (addressLoop .daddrDomain
        (typed p .daddrDomain cmd atypDomain count.toNat) p.addr 0) tokens := by
  rw [scan_head, scanRequest, scan_cons_more (by rfl), scan_cons_more]
  · simp [requestParserFeed, requestParserInit, positive, addressLoop,
      typed, atypDomain, atypIpv4, atypIpv6]
  · simp [requestParserFeed, positive, RequestParser.finished,
      atypDomain, atypIpv4, atypIpv6]

private theorem scan_ipv4_field {p : RequestParser} {array address : List UInt8}
    (room : array.length = 256) (four : address.length = 4)
    (rest : List UInt8) :
    scanRequest (addressLoop .daddrIpv4 p array 0) (address ++ rest) =
      scanRequest (addressDone p 4 (address ++ array.drop 4)) rest := by
  have filled := @scan_fill _ requestParserFeed RequestParser.finished _ _ 4
    (feed_ipv4_more p) (feed_ipv4_ends p) (fun _ _ => rfl) [] array address rest
    (List.length_pos_iff.mp (by omega)) (by simpa using four) (by omega)
  rw [four] at filled
  exact filled

private theorem scan_ipv6_field {p : RequestParser} {array address : List UInt8}
    (room : array.length = 256) (sixteen : address.length = 16)
    (rest : List UInt8) :
    scanRequest (addressLoop .daddrIpv6 p array 0) (address ++ rest) =
      scanRequest (addressDone p 16 (address ++ array.drop 16)) rest := by
  have filled := @scan_fill _ requestParserFeed RequestParser.finished _ _ 16
    (feed_ipv6_more p) (feed_ipv6_ends p) (fun _ _ => rfl) [] array address rest
    (List.length_pos_iff.mp (by omega)) (by simpa using sixteen) (by omega)
  rw [sixteen] at filled
  exact filled

private theorem scan_domain_field {p : RequestParser}
    {array address : List UInt8} (room : array.length = 256)
    (valid : FieldLength address) (counted : p.addrLen = address.length)
    (rest : List UInt8) :
    scanRequest (addressLoop .daddrDomain p array 0) (address ++ rest) =
      scanRequest (addressDone p p.addrLen
        (address ++ 0 :: array.drop (address.length + 1))) rest := by
  have small : p.addrLen ≤ 255 := counted ▸ valid.2
  have fits : address.length < array.length := by
    have := valid.2
    omega
  exact @scan_copy_complete _ requestParserFeed RequestParser.finished
    (addressLoop .daddrDomain p) (addressDone p p.addrLen) p.addrLen
    (fun _ _ _ => feed_domain_more _ _ _ _ small)
    (fun _ _ _ => feed_domain_ends _ _ _ _ small) (fun _ _ => rfl) [] array
    address rest (List.length_pos_iff.mp valid.1) (by simp [counted]) fits

private theorem scan_port (p : RequestParser) (count : Nat)
    (array rest : List UInt8) (high low : UInt8) (zero : p.port = 0) :
    scanRequest (addressDone p count array) (high :: low :: rest) =
      ({ addressDone p count array with
          state := .done
          port := high.toNat * 256 + low.toNat
          portIdx := 2 }, rest, true) := by
  have first := high.toNat_lt
  have second := low.toNat_lt
  rw [scanRequest, scan_cons_more, scan_cons_stop]
  · simp [requestParserFeed, addressDone, zero]
    omega
  · simp [requestParserFeed, addressDone, RequestParser.finished]
  · simp [requestParserFeed, addressDone, RequestParser.finished]

/-- The parser accepts every request, keeps the octets after it and stores its
fields. -/
theorem scan_socksRequest {p : RequestParser} (roomy : p.Roomy)
    (r : SocksRequest) (rest : List UInt8) :
    ∃ q, scan requestParserFeed RequestParser.finished (requestParserInit p)
        (r.encode ++ rest) = (q, rest, true) ∧ q.Holds r := by
  obtain ⟨cmd, atyp, address, high, low, sized⟩ := r
  rcases sized with ⟨rfl, four⟩ | ⟨rfl, sixteen⟩ | ⟨rfl, valid⟩
  · have message : SocksRequest.encode ⟨cmd, atypIpv4, address, high, low,
        .inl ⟨rfl, four⟩⟩ ++ rest =
          0x05 :: cmd :: 0x00 :: atypIpv4 ::
            (address ++ high :: low :: rest) := by
      simp [SocksRequest.encode, atypIpv4, atypDomain]
    have named : ¬ atypIpv4 = atypDomain := by decide
    have scanned := (scan_ipv4 p cmd _).trans
      ((scan_ipv4_field roomy four _).trans (scan_port _ 4 _ rest high low rfl))
    rw [message]
    exact ⟨_, scanned, ⟨rfl, rfl, rfl, four.symm, rfl, ⟨p.addr.drop 4, rfl,
      fun same => absurd same named⟩⟩⟩
  · have message : SocksRequest.encode ⟨cmd, atypIpv6, address, high, low,
        .inr (.inl ⟨rfl, sixteen⟩)⟩ ++ rest =
          0x05 :: cmd :: 0x00 :: atypIpv6 ::
            (address ++ high :: low :: rest) := by
      simp [SocksRequest.encode, atypIpv6, atypDomain]
    have named : ¬ atypIpv6 = atypDomain := by decide
    have scanned := (scan_ipv6 p cmd _).trans
      ((scan_ipv6_field roomy sixteen _).trans
        (scan_port _ 16 _ rest high low rfl))
    rw [message]
    exact ⟨_, scanned, ⟨rfl, rfl, rfl, sixteen.symm, rfl, ⟨p.addr.drop 16, rfl,
      fun same => absurd same named⟩⟩⟩
  · have message : SocksRequest.encode ⟨cmd, atypDomain, address, high, low,
        .inr (.inr ⟨rfl, valid⟩)⟩ ++ rest =
          0x05 :: cmd :: 0x00 :: atypDomain :: address.length.toUInt8 ::
            (address ++ high :: low :: rest) := by
      simp [SocksRequest.encode]
    have typedScan :=
      scan_domain p cmd (address ++ high :: low :: rest) valid.ne_zero
    rw [toNat_length valid.2] at typedScan
    have scanned := typedScan.trans
      ((scan_domain_field roomy valid rfl _).trans
        (scan_port _ _ _ rest high low rfl))
    rw [message]
    exact ⟨_, scanned, ⟨rfl, rfl, rfl, rfl, rfl,
      ⟨0 :: p.addr.drop (address.length + 1), rfl, fun _ => rfl⟩⟩⟩

private theorem port_of_scan {p q : RequestParser} {count : Nat}
    {array tokens rest : List UInt8}
    (scanned : scanRequest (addressDone p count array) tokens =
      (q, rest, true)) :
    ∃ high low after, tokens = high :: low :: after := by
  cases tokens with
  | nil => simp at scanned
  | cons high tokens =>
      cases tokens with
      | nil =>
          simp [scan, requestParserFeed, addressDone, RequestParser.finished]
            at scanned
      | cons low after => exact ⟨high, low, after, rfl⟩

private theorem split_count {count : Nat} {tokens : List UInt8}
    (enough : count ≤ tokens.length) :
    ∃ field rest, field.length = count ∧ tokens = field ++ rest :=
  ⟨tokens.take count, tokens.drop count, List.length_take_of_le enough,
    (List.take_append_drop ..).symm⟩

private theorem head_of_scan {p q : RequestParser} {tokens rest : List UInt8}
    (scanned : scanRequest (requestParserInit p) tokens = (q, rest, true))
    (accepted : q.state = .done) :
    ∃ cmd atyp tail, tokens = 0x05 :: cmd :: 0x00 :: atyp :: tail ∧
      (atyp = atypIpv4 ∨ atyp = atypIpv6 ∨ atyp = atypDomain) := by
  rcases tokens with _ | ⟨version, tokens⟩
  · simp at scanned
  by_cases five : version = 0x05
  swap
  · rw [scanRequest, scan_cons_stop] at scanned
    · cases scanned
      simp [requestParserFeed, requestParserInit, five] at accepted
    · simp [requestParserFeed, requestParserInit, five, RequestParser.finished]
  subst five
  rcases tokens with _ | ⟨cmd, _ | ⟨rsv, tokens⟩⟩
  · simp [scan, requestParserFeed, requestParserInit, RequestParser.finished]
      at scanned
  · simp [scan, requestParserFeed, requestParserInit, RequestParser.finished]
      at scanned
  rw [scanRequest, scan_cons_more (by rfl), scan_cons_more (by rfl)] at scanned
  by_cases zero : rsv = 0x00
  swap
  · rw [scan_cons_stop] at scanned
    · cases scanned
      simp [requestParserFeed, requestParserInit, zero] at accepted
    · simp [requestParserFeed, requestParserInit, zero, RequestParser.finished]
  subst zero
  rcases tokens with _ | ⟨atyp, tokens⟩
  · simp [scan, requestParserFeed, requestParserInit, RequestParser.finished]
      at scanned
  refine ⟨cmd, atyp, tokens, rfl, ?_⟩
  by_contra other
  obtain ⟨notIpv4, notIpv6, notDomain⟩ : atyp ≠ atypIpv4 ∧ atyp ≠ atypIpv6 ∧
      atyp ≠ atypDomain := by
    simpa only [not_or] using other
  rw [scan_cons_more (by rfl), scan_cons_stop] at scanned
  · cases scanned
    simp [requestParserFeed, requestParserInit, notIpv4, notIpv6, notDomain]
      at accepted
  · simp [requestParserFeed, requestParserInit, notIpv4, notIpv6, notDomain,
      RequestParser.finished]

private theorem request_of_scan {p q : RequestParser} {tokens rest : List UInt8}
    (roomy : p.Roomy)
    (scanned : scanRequest (requestParserInit p) tokens = (q, rest, true))
    (accepted : q.state = .done) :
    ∃ (r : SocksRequest) (after : List UInt8), tokens = r.encode ++ after := by
  obtain ⟨cmd, atyp, tail, rfl, rfl | rfl | rfl⟩ :=
    head_of_scan scanned accepted
  · rw [scan_ipv4] at scanned
    obtain ⟨address, after, four, rfl⟩ := split_count
      (enough_of_copy (feed_ipv4_more _) (fun _ _ => rfl) scanned)
    rw [scan_ipv4_field roomy four] at scanned
    obtain ⟨high, low, remaining, rfl⟩ := port_of_scan scanned
    refine ⟨⟨cmd, atypIpv4, address, high, low, .inl ⟨rfl, four⟩⟩,
      remaining, ?_⟩
    simp [SocksRequest.encode, atypIpv4, atypDomain]
  · rw [scan_ipv6] at scanned
    obtain ⟨address, after, sixteen, rfl⟩ := split_count
      (enough_of_copy (feed_ipv6_more _) (fun _ _ => rfl) scanned)
    rw [scan_ipv6_field roomy sixteen] at scanned
    obtain ⟨high, low, remaining, rfl⟩ := port_of_scan scanned
    refine ⟨⟨cmd, atypIpv6, address, high, low, .inr (.inl ⟨rfl, sixteen⟩)⟩,
      remaining, ?_⟩
    simp [SocksRequest.encode, atypIpv6, atypDomain]
  · rcases tail with _ | ⟨count, tokens⟩
    · simp [scanRequest, scan, requestParserFeed, requestParserInit,
        RequestParser.finished, atypDomain, atypIpv4, atypIpv6] at scanned
    by_cases none : count = 0
    · subst none
      rw [scan_head, scanRequest, scan_cons_more (by rfl),
        scan_cons_stop (by rfl)] at scanned
      cases scanned
      cases accepted
    · rw [scan_domain p cmd tokens none] at scanned
      have small : count.toNat ≤ 255 := Nat.le_of_lt_succ count.toNat_lt
      obtain ⟨address, after, valid, counted, rfl⟩ := split_field none
        (enough_of_copy (fun _ _ _ => feed_domain_more
          (typed p .daddrDomain cmd atypDomain count.toNat) _ _ _ small)
          (fun _ _ => rfl) scanned)
      rw [scan_domain_field roomy valid counted.symm] at scanned
      obtain ⟨high, low, remaining, rfl⟩ := port_of_scan scanned
      refine ⟨⟨cmd, atypDomain, address, high, low, .inr (.inr ⟨rfl, valid⟩)⟩,
        remaining, ?_⟩
      simp [SocksRequest.encode, counted]

/-- A stream that the parser accepts begins with a request, whose fields it has
stored. -/
theorem socksRequest_of_scan {p q : RequestParser} {tokens rest : List UInt8}
    (roomy : p.Roomy)
    (scanned : scan requestParserFeed RequestParser.finished
      (requestParserInit p)
      tokens = (q, rest, true)) (accepted : q.state = .done) :
    ∃ r : SocksRequest, tokens = r.encode ++ rest ∧ q.Holds r := by
  obtain ⟨r, after, rfl⟩ := request_of_scan roomy scanned accepted
  obtain ⟨stored, again, holds⟩ := scan_socksRequest roomy r after
  rw [scanned] at again
  cases again
  exact ⟨r, rfl, holds⟩

end SocksProxy
