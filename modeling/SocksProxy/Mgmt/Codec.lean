import SocksProxy.Mgmt.Client
import SocksProxy.Mgmt.Grammar

/-! The two ends of the SMP protocol against each other. -/

namespace SocksProxy

/-! Parsers that can be resumed: once decided they stay so, and they decide only
when the last octet of a message is there. -/

structure Incremental {α : Type} (parse : List UInt8 → Int × α) : Prop where
  stable : ∀ octets more, (parse octets).1 ≠ 0 →
    parse (octets ++ more) = parse octets
  waits : ∀ octets (count : Nat), (count : Int) < (parse octets).1 →
    (parse (octets.take count)).1 = 0

theorem octetAt_append {octets : List UInt8} {i : Nat}
    (within : i < octets.length) (more : List UInt8) :
    octetAt (octets ++ more) i = octetAt octets i := by
  simp [octetAt, List.getElem?_append_left within]

theorem slice_append {octets : List UInt8} {start count : Nat}
    (within : start + count ≤ octets.length) (more : List UInt8) :
    slice (octets ++ more) start count = slice octets start count := by
  unfold slice
  rw [List.drop_append_of_le_length (by omega), List.take_append_of_le_length]
  rw [List.length_drop]
  omega

theorem u32At_append {octets : List UInt8} {i : Nat}
    (within : i + 3 < octets.length) (more : List UInt8) :
    u32At (octets ++ more) i = u32At octets i := by
  unfold u32At
  rw [octetAt_append (by omega), octetAt_append (by omega),
    octetAt_append (by omega), octetAt_append (by omega)]

section Branches

variable {α : Type} {condition : Prop} [Decidable condition] {code : Int}
  {value : α} {otherwise : Int × α}

private theorem went_on
    (decided : (if condition then ((0 : Int), value) else otherwise).1 ≠ 0) :
    ¬ condition ∧ otherwise.1 ≠ 0 := by
  by_cases holds : condition
  · rw [if_pos holds] at decided
    exact absurd rfl decided
  · rw [if_neg holds] at decided
    exact ⟨holds, decided⟩

private theorem found_later {count : Nat} (exits : code ≤ 0)
    (found : (count : Int) <
      (if condition then (code, value) else otherwise).1) :
    ¬ condition ∧ (count : Int) < otherwise.1 := by
  by_cases holds : condition
  · rw [if_pos holds] at found
    dsimp only at found
    omega
  · rw [if_neg holds] at found
    exact ⟨holds, found⟩

end Branches

theorem incremental_parseAuth : Incremental parseAuth where
  stable := by
    intro octets more decided
    unfold parseAuth at decided ⊢
    obtain ⟨two, decided⟩ := went_on decided
    rw [List.length_append, if_neg two, if_neg (by omega),
      octetAt_append (by omega),
      octetAt_append (by omega)]
    split
    · rfl
    next version =>
      rw [if_neg version] at decided
      dsimp only at decided ⊢
      split
      · rfl
      next named =>
        rw [if_neg named] at decided
        obtain ⟨long, decided⟩ := went_on decided
        rw [if_neg long, if_neg (by omega), octetAt_append (by omega)]
        split
        · rfl
        next worded =>
          rw [if_neg worded] at decided
          obtain ⟨whole, -⟩ := went_on decided
          rw [if_neg whole, if_neg (by omega), slice_append (by omega),
            slice_append (by omega)]
  waits := by
    intro octets count found
    unfold parseAuth at found ⊢
    obtain ⟨two, found⟩ := found_later (by omega) found
    obtain ⟨version, found⟩ := found_later (by omega) found
    obtain ⟨named, found⟩ := found_later (by omega) found
    obtain ⟨long, found⟩ := found_later (by omega) found
    obtain ⟨worded, found⟩ := found_later (by omega) found
    obtain ⟨whole, found⟩ := found_later (by omega) found
    dsimp only at found
    rw [List.length_take]
    split
    · rfl
    next =>
      rw [octetAt_take _ (by omega), octetAt_take _ (by omega), if_neg version,
        if_neg named]
      split
      · rfl
      next =>
        rw [octetAt_take _ (by omega), if_neg worded, if_pos (by omega)]

theorem incremental_parseAddUser (r : MgmtReq) :
    Incremental fun octets => parseAddUser octets r where
  stable := by
    intro octets more decided
    unfold parseAddUser at decided ⊢
    obtain ⟨three, decided⟩ := went_on decided
    rw [List.length_append, if_neg three, if_neg (by omega),
      octetAt_append (by omega)]
    dsimp only at decided ⊢
    split
    · rfl
    next named =>
      rw [if_neg named] at decided
      obtain ⟨long, decided⟩ := went_on decided
      rw [if_neg long, if_neg (by omega), octetAt_append (by omega)]
      split
      · rfl
      next worded =>
        rw [if_neg worded] at decided
        obtain ⟨whole, -⟩ := went_on decided
        rw [if_neg whole, if_neg (by omega), slice_append (by omega),
          slice_append (by omega)]
  waits := by
    intro octets count found
    unfold parseAddUser at found ⊢
    obtain ⟨three, found⟩ := found_later (by omega) found
    obtain ⟨named, found⟩ := found_later (by omega) found
    obtain ⟨long, found⟩ := found_later (by omega) found
    obtain ⟨worded, found⟩ := found_later (by omega) found
    obtain ⟨whole, found⟩ := found_later (by omega) found
    dsimp only at found
    rw [List.length_take]
    split
    · rfl
    next =>
      rw [octetAt_take _ (by omega), if_neg named]
      split
      · rfl
      next =>
        rw [octetAt_take _ (by omega), if_neg worded, if_pos (by omega)]

theorem incremental_parseDelUser (r : MgmtReq) :
    Incremental fun octets => parseDelUser octets r where
  stable := by
    intro octets more decided
    unfold parseDelUser at decided ⊢
    obtain ⟨three, decided⟩ := went_on decided
    rw [List.length_append, if_neg three, if_neg (by omega),
      octetAt_append (by omega)]
    dsimp only at decided ⊢
    split
    · rfl
    next named =>
      rw [if_neg named] at decided
      obtain ⟨whole, -⟩ := went_on decided
      rw [if_neg whole, if_neg (by omega), slice_append (by omega)]
  waits := by
    intro octets count found
    unfold parseDelUser at found ⊢
    obtain ⟨three, found⟩ := found_later (by omega) found
    obtain ⟨named, found⟩ := found_later (by omega) found
    obtain ⟨whole, found⟩ := found_later (by omega) found
    dsimp only at found
    rw [List.length_take]
    split
    · rfl
    next =>
      rw [octetAt_take _ (by omega), if_neg named, if_pos (by omega)]

theorem incremental_parseSetConfig (r : MgmtReq) :
    Incremental fun octets => parseSetConfig octets r where
  stable := by
    intro octets more decided
    unfold parseSetConfig at decided ⊢
    obtain ⟨three, decided⟩ := went_on decided
    rw [List.length_append, if_neg three, if_neg (by omega),
      octetAt_append (by omega)]
    dsimp only at decided ⊢
    split
    next auth =>
      rw [if_pos auth] at decided
      obtain ⟨whole, -⟩ := went_on decided
      rw [if_neg whole, if_neg (by omega), octetAt_append (by omega)]
    next other =>
      rw [if_neg other] at decided
      obtain ⟨whole, -⟩ := went_on decided
      rw [if_neg whole, if_neg (by omega), u32At_append (by omega)]
  waits := by
    intro octets count found
    unfold parseSetConfig at found ⊢
    obtain ⟨three, found⟩ := found_later (by omega) found
    dsimp only at found
    rw [List.length_take]
    split
    · rfl
    next =>
      rw [octetAt_take _ (by omega)]
      dsimp only
      split
      next auth =>
        rw [if_pos auth] at found
        obtain ⟨whole, found⟩ := found_later (by omega) found
        dsimp only at found
        rw [if_pos (by omega)]
      next other =>
        rw [if_neg other] at found
        obtain ⟨whole, found⟩ := found_later (by omega) found
        dsimp only at found
        rw [if_pos (by omega)]

theorem incremental_parseRequest (r : MgmtReq) :
    Incremental fun octets => parseRequest octets r where
  stable := by
    intro octets more decided
    unfold parseRequest at decided ⊢
    obtain ⟨two, decided⟩ := went_on decided
    rw [List.length_append, if_neg two, if_neg (by omega),
      octetAt_append (by omega),
      octetAt_append (by omega)]
    split
    · rfl
    next version =>
      rw [if_neg version] at decided
      dsimp only at decided ⊢
      split
      · rfl
      next =>
        rw [if_neg ‹_›] at decided
        split
        next add =>
          rw [if_pos add] at decided
          exact (incremental_parseAddUser _).stable octets more decided
        next notAdd =>
          rw [if_neg notAdd] at decided
          split
          next del =>
            rw [if_pos del] at decided
            exact (incremental_parseDelUser _).stable octets more decided
          next notDel =>
            rw [if_neg notDel] at decided
            split
            next config =>
              rw [if_pos config] at decided
              exact (incremental_parseSetConfig _).stable octets more decided
            · rfl
  waits := by
    intro octets count found
    unfold parseRequest at found ⊢
    obtain ⟨two, found⟩ := found_later (by omega) found
    obtain ⟨version, found⟩ := found_later (by omega) found
    rw [List.length_take]
    split
    · rfl
    next =>
      rw [octetAt_take _ (by omega), octetAt_take _ (by omega), if_neg version]
      dsimp only at found ⊢
      split
      next simple =>
        rw [if_pos simple] at found
        dsimp only at found
        omega
      next notSimple =>
        rw [if_neg notSimple] at found
        split
        next add =>
          rw [if_pos add] at found
          exact (incremental_parseAddUser _).waits octets count found
        next notAdd =>
          rw [if_neg notAdd] at found
          split
          next del =>
            rw [if_pos del] at found
            exact (incremental_parseDelUser _).waits octets count found
          next notDel =>
            rw [if_neg notDel] at found
            split
            next config =>
              rw [if_pos config] at found
              exact (incremental_parseSetConfig _).waits octets count found
            next unknown =>
              rw [if_neg unknown] at found
              dsimp only at found
              omega

private theorem digit_bounds {number : Nat} {digit : Char}
    (member : digit ∈ Nat.toDigits 10 number) :
    48 ≤ digit.toNat ∧ digit.toNat ≤ 57 :=
  Char.isDigit_iff_toNat.mp
    (Nat.isDigit_of_mem_toDigits (by decide) (by decide) member)

private theorem toNat_digit {digit : Char}
    (bounds : 48 ≤ digit.toNat ∧ digit.toNat ≤ 57) :
    digit.toNat.toUInt8.toNat = digit.toNat :=
  Nat.mod_eq_of_lt (by omega)

private theorem isDigit_octet {digit : Char}
    (bounds : 48 ≤ digit.toNat ∧ digit.toNat ≤ 57) :
    isDigit digit.toNat.toUInt8 = true := by
  simp only [isDigit, decide_eq_true_eq, UInt8.le_iff_toNat_le,
    toNat_digit bounds]
  exact bounds

private theorem not_isDigit_zero : isDigit 0 = false := by decide

private theorem not_isSpace_digit {octet : UInt8}
    (digital : isDigit octet = true) :
    isSpace octet = false := by
  simp only [isDigit, decide_eq_true_eq, UInt8.le_iff_toNat_le] at digital
  have low : (48 : UInt8).toNat = 48 := rfl
  simp only [isSpace, Bool.or_eq_false_iff, beq_eq_false_iff_ne,
    decide_eq_false_iff_not, UInt8.le_iff_toNat_le]
  constructor
  · rintro rfl
    exact absurd digital.1 (by decide)
  · rintro ⟨-, below⟩
    have high : (13 : UInt8).toNat = 13 := rfl
    omega

private theorem leadingSign_digit {octet : UInt8}
    (digital : isDigit octet = true) (rest : List UInt8) :
    leadingSign (octet :: rest) = (false, octet :: rest) := by
  unfold leadingSign
  split
  next same =>
    rw [(List.cons.inj same).1] at digital
    exact absurd digital (by decide)
  next same =>
    rw [(List.cons.inj same).1] at digital
    exact absurd digital (by decide)
  next => rfl

theorem octets_ofNat (number : Nat) :
    (CString.ofNat number).octets =
      (Nat.toDigits 10 number).map fun digit => digit.toNat.toUInt8 := by
  apply CString.octets_ofArray_of_noNul
  intro nul
  obtain ⟨digit, member, zero⟩ := List.mem_map.mp nul
  have digital := isDigit_octet (digit_bounds member)
  rw [zero, not_isDigit_zero] at digital
  exact Bool.false_ne_true digital

private theorem digitsValue_map {digits : List Char}
    (bounds : ∀ digit ∈ digits, 48 ≤ digit.toNat ∧ digit.toNat ≤ 57)
    (start : Nat) :
    (digits.map fun digit => digit.toNat.toUInt8).foldl
        (fun value digit => value * 10 + (digit.toNat - 48)) start =
      Nat.ofDigitChars 10 digits start := by
  induction digits generalizing start with
  | nil => simp
  | cons digit digits induction =>
      rw [List.map_cons, List.foldl_cons, Nat.ofDigitChars_cons,
        induction fun other member =>
          bounds other (List.mem_cons_of_mem _ member),
        toNat_digit (bounds digit List.mem_cons_self), Nat.mul_comm]
      rfl

theorem strtoul_digits {text : CString} (nonempty : text.octets ≠ [])
    (digital : ∀ octet ∈ text.octets, isDigit octet = true) :
    strtoul text =
      if digitsValue text.octets ≥ 2 ^ 64 then 2 ^ 64 - 1
        else digitsValue text.octets := by
  obtain ⟨first, rest, written⟩ := List.exists_cons_of_ne_nil nonempty
  have leads : isDigit first = true := digital first (by simp [written])
  have whole : (first :: rest).takeWhile isDigit = first :: rest :=
    List.takeWhile_eq_self_iff.mpr fun octet member =>
      digital octet (written ▸ member)
  have kept : (first :: rest).dropWhile isSpace = first :: rest := by
    simp [not_isSpace_digit leads]
  unfold strtoul
  rw [written, kept, leadingSign_digit leads]
  dsimp only
  rw [whole]
  rfl

/-- The decimal text of a number is converted back to it. -/
theorem strtoul_ofNat {number : Nat} (small : number < 2 ^ 64) :
    strtoul (.ofNat number) = number := by
  have digital : ∀ octet ∈ (CString.ofNat number).octets,
      isDigit octet = true := by
    rw [octets_ofNat]
    rintro octet member
    obtain ⟨digit, present, rfl⟩ := List.mem_map.mp member
    exact isDigit_octet (digit_bounds present)
  have value : digitsValue (CString.ofNat number).octets = number := by
    rw [octets_ofNat, digitsValue, digitsValue_map fun _ member =>
      digit_bounds member]
    exact Nat.ofDigitChars_ten_toDigits
  have nonempty : (CString.ofNat number).octets ≠ [] := by
    rw [octets_ofNat]
    exact fun none => Nat.toDigits_ne_nil (List.map_eq_nil_iff.mp none)
  rw [strtoul_digits nonempty digital, value, if_neg (by omega)]

theorem clientField_valid {field : CString} (valid : FieldLength field.octets) :
    clientField field = some (field.octets.length.toUInt8 :: field.octets) := by
  have bounds : ¬ (field.strlen = 0 ∨ field.strlen > 255) := by
    have least := valid.1
    have most := valid.2
    unfold CString.strlen
    omega
  rw [clientField, if_neg bounds]
  rfl

theorem u32At_octets {v : Nat} (small : v < 2 ^ 32) :
    u32At (u32Octets v) 0 = v := by
  simp only [u32At, u32Octets, octetAt, List.getElem?_cons_zero,
    List.getElem?_cons_succ, Option.getD_some, Nat.toUInt8_eq,
    UInt8.toNat_ofNat']
  omega

/-- The octets of a request, and what the parser makes of them. -/
def ParsedAs (octets : List UInt8) (fields : MgmtReq) : Prop :=
  parseRequest octets .zero = ((octets.length : Int), fields)

private theorem parsedAs_encode {r : SmpRequest}
    (known : r.code = (r.encode.length : Int)) :
    ParsedAs r.encode r.parsed := by
  have whole := r.parseRequest_encode []
  rw [List.append_nil, known] at whole
  exact whole

theorem cmdSetConfig_keys (value : CString) :
    cmdSetConfigRequest (.ofString "buffer-size") value =
        some (smpVersion :: smpCmdSetConfig :: smpCfgIoBufferSize ::
          u32Octets (strtoul value % 2 ^ 32)) ∧
      cmdSetConfigRequest (.ofString "timeout") value =
        some (smpVersion :: smpCmdSetConfig :: smpCfgConnTimeout ::
          u32Octets (strtoul value % 2 ^ 32)) ∧
      cmdSetConfigRequest (.ofString "auth-required") value =
        some [smpVersion, smpCmdSetConfig, smpCfgAuthRequired,
          if strtoul value ≠ 0 then 1 else 0] := by
  have timeout : CString.ofString "timeout" ≠ .ofString "buffer-size" := by
    decide +kernel
  have auth : CString.ofString "auth-required" ≠ .ofString "buffer-size" ∧
      CString.ofString "auth-required" ≠ .ofString "timeout" := by
    decide +kernel
  refine ⟨?_, ?_, ?_⟩
  · rw [cmdSetConfigRequest, if_pos rfl]
  · rw [cmdSetConfigRequest, if_neg timeout, if_pos rfl]
  · rw [cmdSetConfigRequest, if_neg auth.1, if_neg auth.2, if_pos rfl]

private theorem parsedAs_u32 {key : UInt8} (numeric : key ≠ smpCfgAuthRequired)
    {v : Nat} (small : v < 2 ^ 32) :
    ParsedAs (smpVersion :: smpCmdSetConfig :: key :: u32Octets v)
      { MgmtReq.zero with cmd := smpCmdSetConfig, key := key, u32 := v } := by
  have parsed := parsedAs_encode (r := .setConfig key (u32Octets v)
    (by rw [if_neg numeric]; rfl)) rfl
  simp only [SmpRequest.parsed, if_neg numeric, u32At_octets small] at parsed
  exact parsed

private theorem parsedAs_flag (flag : UInt8) :
    ParsedAs [smpVersion, smpCmdSetConfig, smpCfgAuthRequired, flag]
      { MgmtReq.zero with
        cmd := smpCmdSetConfig, key := smpCfgAuthRequired, u8 := flag } :=
  parsedAs_encode (r := .setConfig smpCfgAuthRequired [flag] rfl) rfl

/-- The server reads every request of the client as the client meant it, field
by field and to its last octet, and both of its parsers can be resumed. -/
theorem request_codec :
    (∀ user pass : CString, FieldLength user.octets → FieldLength pass.octets →
      (∃ octets, doAuthRequest user pass = some octets ∧
        parseAuth octets = ((octets.length : Int), user.octets, pass.octets)) ∧
      (∃ octets, cmdAddUserRequest user pass = some octets ∧
        ParsedAs octets { MgmtReq.zero with
          cmd := smpCmdAddUser, user := user.octets, pass := pass.octets }) ∧
      ∃ octets, cmdDelUserRequest user = some octets ∧
        ParsedAs octets { MgmtReq.zero with
          cmd := smpCmdDelUser, user := user.octets }) ∧
    ParsedAs cmdMetricsRequest { MgmtReq.zero with cmd := smpCmdMetrics } ∧
    ParsedAs cmdGetConfigRequest { MgmtReq.zero with cmd := smpCmdGetConfig } ∧
    ParsedAs cmdListUsersRequest { MgmtReq.zero with cmd := smpCmdListUsers } ∧
    (∀ value : CString,
      (∃ octets, cmdSetConfigRequest (.ofString "buffer-size") value =
        some octets ∧ ParsedAs octets { MgmtReq.zero with
          cmd := smpCmdSetConfig
          key := smpCfgIoBufferSize
          u32 := strtoul value % 2 ^ 32 }) ∧
      (∃ octets, cmdSetConfigRequest (.ofString "timeout") value = some octets ∧
        ParsedAs octets { MgmtReq.zero with
          cmd := smpCmdSetConfig
          key := smpCfgConnTimeout
          u32 := strtoul value % 2 ^ 32 }) ∧
      ∃ octets, cmdSetConfigRequest (.ofString "auth-required") value =
        some octets ∧ ParsedAs octets { MgmtReq.zero with
          cmd := smpCmdSetConfig
          key := smpCfgAuthRequired
          u8 := if strtoul value ≠ 0 then 1 else 0 }) ∧
    (∀ v < 2 ^ 32, strtoul (.ofNat v) % 2 ^ 32 = v) ∧
    Incremental parseAuth ∧ ∀ r, Incremental fun octets =>
        parseRequest octets r := by
  refine ⟨?_, ?_, ?_, ?_, ?_, ?_, incremental_parseAuth,
    incremental_parseRequest⟩
  · intro user pass validUser validPass
    have sentUser := clientField_valid validUser
    have sentPass := clientField_valid validPass
    refine ⟨⟨authMessage user.octets pass.octets, ?_, ?_⟩,
      ⟨_, ?_, parsedAs_encode
      (r := .addUser ⟨_, validUser⟩ ⟨_, validPass⟩) rfl⟩,
      ⟨_, ?_, parsedAs_encode (r := .delUser ⟨_, validUser⟩) rfl⟩⟩
    · rw [doAuthRequest, sentUser, sentPass]
      rfl
    · have whole := parseAuth_message validUser validPass []
      rw [List.append_nil] at whole
      exact whole
    · rw [cmdAddUserRequest, sentUser, sentPass]
      rfl
    · rw [cmdDelUserRequest, sentUser]
      rfl
  · exact parsedAs_encode (r := .metrics) rfl
  · exact parsedAs_encode (r := .getConfig) rfl
  · exact parsedAs_encode (r := .listUsers) rfl
  · intro value
    obtain ⟨size, timeout, auth⟩ := cmdSetConfig_keys value
    have small : strtoul value % 2 ^ 32 < 2 ^ 32 := Nat.mod_lt _ (by decide)
    exact ⟨⟨_, size, parsedAs_u32 (by decide) small⟩,
      ⟨_, timeout, parsedAs_u32 (by decide) small⟩, ⟨_, auth, parsedAs_flag _⟩⟩
  · intro v small
    rw [strtoul_ofNat (by omega)]
    exact Nat.mod_eq_of_lt small

end SocksProxy
