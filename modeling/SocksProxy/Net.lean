import SocksProxy.CString

/-! Descriptors, error numbers, socket addresses and their printed form
(`netutils.c`). -/

namespace SocksProxy

abbrev Fd := Nat

/-- The value of `errno`, with the numbers of the sources' platform. -/
abbrev Errno := Nat

def eIntr : Errno := 4
def eBadf : Errno := 9
def eAgain : Errno := 11
def eWouldBlock : Errno := eAgain
def eNetDown : Errno := 100
def eNetUnreach : Errno := 101
def eTimedOut : Errno := 110
def eConnRefused : Errno := 111
def eHostDown : Errno := 112
def eHostUnreach : Errno := 113
def eInProgress : Errno := 115

/-- The test of every non-blocking call: the call would have blocked. -/
def wouldBlock (e : Errno) : Bool := e == eAgain || e == eWouldBlock

inductive Family
  | inet | inet6 | other (code : Nat)
  deriving DecidableEq, Repr

/-- `struct sockaddr_storage`: its family, the octets of its address and its
port in host order. -/
structure SockAddr where
  family : Family
  addr : List UInt8
  port : Nat
  deriving DecidableEq, Repr

instance : Inhabited SockAddr := ⟨⟨.other 0, [], 0⟩⟩

private def hexText (number : Nat) : String :=
  String.ofList (Nat.toDigits 16 number)

private def dotted (octets : List UInt8) : String :=
  ".".intercalate (octets.map fun octet => toString octet.toNat)

private def groups : List UInt8 → List Nat
  | high :: low :: rest => (high.toNat * 256 + low.toNat) :: groups rest
  | _ => []

private def zeroRun : List Nat → Nat
  | 0 :: rest => zeroRun rest + 1
  | _ => 0

/-- Start and length of the first longest run of at least two zero groups. -/
private def bestRun (words : List Nat) : Nat × Nat :=
  (List.range words.length).foldl (fun best start =>
    let length := zeroRun (words.drop start)
    if length ≥ 2 ∧ length > best.2 then (start, length) else best) (0, 0)

private def inetNtop6 (octets : List UInt8) : String :=
  let words := groups octets
  let (base, length) := bestRun words
  let mapped := base = 0 ∧
    (length = 6 ∨ (length = 5 ∧ words[5]? = some 0xffff))
  let text := (List.range 8).foldl (fun text i =>
    if length ≠ 0 ∧ base ≤ i ∧ i < base + length then
      if i = base then text ++ ":" else text
    else if mapped ∧ i > 6 then text
    else
      let text := if i = 0 then text else text ++ ":"
      if mapped ∧ i = 6 then text ++ dotted (octets.drop 12)
      else text ++ hexText ((words[i]?).getD 0)) ""
  if length ≠ 0 ∧ base + length = 8 then text ++ ":" else text

/-- `inet_ntop` on the octets of an IPv4 or IPv6 address. -/
def inetNtop (family : Family) (octets : List UInt8) : CString :=
  match family with
  | .inet => .ofString (dotted (octets.take 4))
  | .inet6 => .ofString (inetNtop6 (octets.take 16))
  | .other _ => .empty

/-- `sockaddr_to_human`, with a buffer that holds every address. -/
def sockaddrToHuman (addr : SockAddr) : CString :=
  match addr.family with
  | .inet | .inet6 =>
      ((inetNtop addr.family addr.addr).append (.ofString ":")).append
        (.ofNat addr.port)
  | .other _ => .ofString "unknown:"

def Graphic (text : String) : Prop :=
  ∀ character ∈ text.toList, 33 ≤ character.toNat ∧ character.toNat < 127

theorem Graphic.append {left right : String} (first : Graphic left)
    (second : Graphic right) :
    Graphic (left ++ right) := by
  intro character member
  rw [String.toList_append, List.mem_append] at member
  exact member.elim (first character) (second character)

theorem graphic_toDigits {base : Nat} (wide : 1 < base) (small : base ≤ 16)
    (number : Nat) :
    ∀ character ∈ Nat.toDigits base number, 33 ≤ character.toNat ∧
      character.toNat < 127 := by
  have digit : ∀ value < 16, 33 ≤ (Nat.digitChar value).toNat ∧
      (Nat.digitChar value).toNat < 127 := by
    decide
  induction number using Nat.strongRecOn with
  | ind number induction =>
      intro character member
      rw [Nat.toDigits_eq_if wide] at member
      split at member
      next below =>
        rw [List.mem_singleton.mp member]
        exact digit _ (by omega)
      next above =>
        rcases List.mem_append.mp member with front | last
        · exact induction _ (Nat.div_lt_self (by omega) wide) character front
        · rw [List.mem_singleton.mp last]
          exact digit _ (lt_of_lt_of_le (Nat.mod_lt _ (by omega)) small)

private theorem graphic_hexText (number : Nat) : Graphic (hexText number) := by
  unfold Graphic hexText
  rw [String.toList_ofList]
  exact graphic_toDigits (by decide) (by decide) number

private theorem graphic_dotted (octets : List UInt8) :
    Graphic (dotted octets) := by
  unfold dotted
  induction octets with
  | nil => simp [Graphic]
  | cons octet octets induction =>
      have number : Graphic (toString octet.toNat) := by
        unfold Graphic
        rw [Nat.toString_eq_ofList_toDigits, String.toList_ofList]
        exact graphic_toDigits (by decide) (by decide) octet.toNat
      cases octets with
      | nil => simpa using number
      | cons next octets =>
          rw [List.map_cons, List.map_cons, String.intercalate_cons_cons]
          exact (number.append (by simp [Graphic])).append induction

private theorem graphic_foldl {step : String → Nat → String}
    (steps : ∀ {text}, Graphic text → ∀ place, Graphic (step text place))
    {text : String} (graphic : Graphic text) (places : List Nat) :
    Graphic (places.foldl step text) := by
  induction places generalizing text with
  | nil => exact graphic
  | cons place places induction => exact induction (steps graphic place)

private theorem graphic_ite {condition : Prop} [Decidable condition]
    {left right : String} (first : Graphic left) (second : Graphic right) :
    Graphic (if condition then left else right) := by
  split
  · exact first
  · exact second

private theorem graphic_inetNtop6 (octets : List UInt8) :
    Graphic (inetNtop6 octets) := by
  have colon : Graphic ":" := by simp [Graphic]
  have printed {text : String} (graphic : Graphic text) :
      Graphic (text ++ ":") :=
    graphic.append colon
  unfold inetNtop6
  dsimp only
  generalize bestRun (groups octets) = run
  refine (fun whole => graphic_ite (printed whole) whole) ?_
  refine graphic_foldl ?_ (by simp [Graphic]) _
  intro text graphic place
  have spaced : Graphic (if place = 0 then text else text ++ ":") :=
    graphic_ite graphic (printed graphic)
  apply graphic_ite
  · exact graphic_ite (printed graphic) graphic
  · apply graphic_ite
    · exact graphic
    · exact graphic_ite (spaced.append (graphic_dotted _))
        (spaced.append (graphic_hexText _))

def GraphicOctets (string : CString) : Prop :=
  ∀ octet ∈ string.octets, 33 ≤ octet.toNat ∧ octet.toNat < 127

theorem Graphic.octets {text : String} (graphic : Graphic text) :
    GraphicOctets (.ofString text) := by
  intro octet member
  obtain ⟨character, present, rfl⟩ :=
    List.mem_map.mp ((List.takeWhile_sublist _).mem member)
  have bounds := graphic character present
  rw [Nat.toUInt8, UInt8.toNat_ofNat', Nat.mod_eq_of_lt (by omega)]
  exact bounds

theorem GraphicOctets.append {left right : CString} (first : GraphicOctets left)
    (second : GraphicOctets right) : GraphicOctets (left.append right) := by
  intro octet member
  exact (List.mem_append.mp member).elim (first octet) (second octet)

theorem graphic_ofNat (number : Nat) : GraphicOctets (.ofNat number) := by
  intro octet member
  obtain ⟨character, present, rfl⟩ :=
    List.mem_map.mp ((List.takeWhile_sublist _).mem member)
  have bounds :=
    graphic_toDigits (by decide) (by decide) number character present
  rw [Nat.toUInt8, UInt8.toNat_ofNat', Nat.mod_eq_of_lt (by omega)]
  exact bounds

theorem graphic_inetNtop (family : Family) (octets : List UInt8) :
    GraphicOctets (inetNtop family octets) := by
  cases family with
  | inet => exact (graphic_dotted _).octets
  | inet6 => exact (graphic_inetNtop6 _).octets
  | other => simp [inetNtop, CString.empty, GraphicOctets]

theorem graphic_sockaddrToHuman (addr : SockAddr) :
    GraphicOctets (sockaddrToHuman addr) := by
  have colon : Graphic ":" := by simp [Graphic]
  have unknown : Graphic "unknown:" := by simp [Graphic]
  unfold sockaddrToHuman
  split
  · exact ((graphic_inetNtop _ _).append colon.octets).append (graphic_ofNat _)
  · exact ((graphic_inetNtop _ _).append colon.octets).append (graphic_ofNat _)
  · exact unknown.octets

end SocksProxy
