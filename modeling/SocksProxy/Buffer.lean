import SocksProxy.Lib.Window

/-! The linear byte buffer of `buffer.c`: a block of memory with a read and a
write offset that are only brought back to its start when they meet. -/

namespace SocksProxy

open Window

/-- `struct buffer`, with its pointers as offsets into the block `data`. -/
structure Buffer where
  data : Nat → UInt8
  limit : Nat
  read : Nat
  write : Nat
  read_le_write : read ≤ write
  write_le_limit : write ≤ limit

namespace Buffer

/-- The readable octets, those between the two offsets. -/
def content (b : Buffer) : List UInt8 :=
  window b.data b.read (b.write - b.read)

/-- The free octets after the write offset. -/
def space (b : Buffer) : Nat := b.limit - b.write

end Buffer

def bufferReset (b : Buffer) : Buffer :=
  { b with
    read := 0
    write := 0
    read_le_write := Nat.le_refl 0
    write_le_limit := Nat.zero_le _ }

def bufferInit (n : Nat) (data : Nat → UInt8) : Buffer where
  data := data
  limit := n
  read := 0
  write := 0
  read_le_write := Nat.le_refl 0
  write_le_limit := Nat.zero_le n

def bufferCanWrite (b : Buffer) : Bool := decide (b.limit - b.write > 0)

def bufferCanRead (b : Buffer) : Bool := decide (b.write - b.read > 0)

/-- Advance the write offset; the assertion of the source fails in the other
branch, which no caller reaches. -/
def bufferWriteAdv (b : Buffer) (bytes : Nat) : Buffer :=
  if fits : b.write + bytes ≤ b.limit then
    { b with
      write := b.write + bytes
      read_le_write := Nat.le_add_right_of_le b.read_le_write
      write_le_limit := fits }
  else b

/-- Store octets at the write pointer, as `recv` does, and advance past them. -/
def bufferFill (b : Buffer) (octets : List UInt8) : Buffer :=
  bufferWriteAdv { b with data := store b.data b.write octets } octets.length

def bufferCompact (b : Buffer) : Buffer :=
  if b.read = 0 then b
  else if b.read = b.write then bufferReset b
  else
    { b with
      data := store b.data 0 b.content
      read := 0
      write := b.write - b.read
      read_le_write := Nat.zero_le _
      write_le_limit := by
        have bound := b.write_le_limit
        omega }

def bufferReadAdv (b : Buffer) (bytes : Nat) : Buffer :=
  if fits : b.read + bytes ≤ b.write then
    let advanced : Buffer :=
      { b with read := b.read + bytes, read_le_write := fits }
    if advanced.read = advanced.write then bufferCompact advanced else advanced
  else b

/-- `buffer_read`: the next octet, or 0 when there is none. -/
def bufferRead (b : Buffer) : UInt8 × Buffer :=
  if bufferCanRead b then (b.data b.read, bufferReadAdv b 1) else (0, b)

/-- `buffer_write`: one octet, dropped when the buffer is full. -/
def bufferWrite (b : Buffer) (c : UInt8) : Buffer :=
  if bufferCanWrite b then bufferFill b [c] else b

def bufferWriteAll (b : Buffer) (octets : List UInt8) : Buffer :=
  octets.foldl bufferWrite b

namespace Buffer

@[simp] theorem length_content (b : Buffer) :
    b.content.length = b.write - b.read := by
  simp [content]

theorem content_eq_nil_iff (b : Buffer) :
    b.content = [] ↔ b.read = b.write := by
  rw [← List.length_eq_zero_iff, length_content]
  have bound := b.read_le_write
  omega

@[simp] theorem content_reset (b : Buffer) : (bufferReset b).content = [] := rfl

@[simp] theorem content_init (n : Nat) (data : Nat → UInt8) :
    (bufferInit n data).content = [] := rfl

@[simp] theorem limit_reset (b : Buffer) : (bufferReset b).limit = b.limit :=
  rfl

@[simp] theorem limit_init (n : Nat) (data : Nat → UInt8) :
    (bufferInit n data).limit = n := rfl

@[simp] theorem write_reset (b : Buffer) : (bufferReset b).write = 0 := rfl

@[simp] theorem write_init (n : Nat) (data : Nat → UInt8) :
    (bufferInit n data).write = 0 := rfl

theorem canRead_iff (b : Buffer) : bufferCanRead b = true ↔ b.content ≠ [] := by
  rw [Ne, content_eq_nil_iff]
  have bound := b.read_le_write
  simp only [bufferCanRead, decide_eq_true_eq]
  omega

theorem canRead_eq_false_iff (b : Buffer) :
    bufferCanRead b = false ↔ b.content = [] := by
  rw [← Bool.not_eq_true, canRead_iff, not_not]

theorem canWrite_iff (b : Buffer) : bufferCanWrite b = true ↔ b.space ≠ 0 := by
  rw [bufferCanWrite, decide_eq_true_iff, space]
  exact Nat.pos_iff_ne_zero

theorem content_fill {b : Buffer} {octets : List UInt8}
    (fits : octets.length ≤ b.space) :
    (bufferFill b octets).content = b.content ++ octets := by
  have order := b.read_le_write
  have bound := b.write_le_limit
  have room : b.write + octets.length ≤ b.limit := by
    unfold space at fits
    omega
  have split : b.write + octets.length - b.read =
      (b.write - b.read) + octets.length := by omega
  have position : b.read + (b.write - b.read) = b.write := by omega
  have extended := window_store_end b.data octets b.read (b.write - b.read)
  simp only [bufferFill, bufferWriteAdv, room, dite_true, content, split]
  rwa [position] at extended

@[simp] theorem limit_fill (b : Buffer) (octets : List UInt8) :
    (bufferFill b octets).limit = b.limit := by
  unfold bufferFill bufferWriteAdv
  split <;> rfl

theorem write_fill {b : Buffer} {octets : List UInt8}
    (fits : octets.length ≤ b.space) :
    (bufferFill b octets).write = b.write + octets.length := by
  have bound := b.write_le_limit
  have room : b.write + octets.length ≤ b.limit := by
    unfold space at fits
    omega
  simp [bufferFill, bufferWriteAdv, room]

theorem content_compact (b : Buffer) :
    (bufferCompact b).content = b.content := by
  unfold bufferCompact
  by_cases start : b.read = 0
  · rw [if_pos start]
  · rw [if_neg start]
    by_cases met : b.read = b.write
    · rw [if_pos met, content_reset, (content_eq_nil_iff b).mpr met]
    · rw [if_neg met]
      exact window_store_window b.data b.read (b.write - b.read)

@[simp] theorem limit_compact (b : Buffer) :
    (bufferCompact b).limit = b.limit := by
  unfold bufferCompact
  split
  · rfl
  · split <;> rfl

theorem content_readAdv {b : Buffer} {bytes : Nat}
    (fits : bytes ≤ b.content.length) :
    (bufferReadAdv b bytes).content = b.content.drop bytes := by
  have order := b.read_le_write
  rw [length_content] at fits
  have room : b.read + bytes ≤ b.write := by omega
  have dropped := drop_window b.data b.read (b.write - b.read) bytes fits
  have rest : b.write - b.read - bytes = b.write - (b.read + bytes) := by omega
  simp only [bufferReadAdv, room, dite_true]
  split
  · rw [content_compact]
    simpa only [content, rest] using dropped.symm
  · simpa only [content, rest] using dropped.symm

@[simp] theorem limit_readAdv (b : Buffer) (bytes : Nat) :
    (bufferReadAdv b bytes).limit = b.limit := by
  unfold bufferReadAdv
  split
  · dsimp only
    split
    · rw [limit_compact]
    · rfl
  · rfl

theorem write_readAdv_all {b : Buffer} {bytes : Nat}
    (all : bytes = b.content.length) : (bufferReadAdv b bytes).write = 0 := by
  have order := b.read_le_write
  rw [length_content] at all
  have met : b.read + bytes = b.write := by omega
  simp only [bufferReadAdv, met, if_true, bufferCompact]
  by_cases start : b.write = 0
  · simp [start]
  · simp [start]

theorem write_readAdv_some {b : Buffer} {bytes : Nat}
    (some : bytes < b.content.length) :
    (bufferReadAdv b bytes).write = b.write := by
  have order := b.read_le_write
  rw [length_content] at some
  have room : b.read + bytes ≤ b.write := by omega
  have apart : ¬ b.read + bytes = b.write := by omega
  simp [bufferReadAdv, room, apart]

theorem readAdv_over {b : Buffer} {bytes : Nat}
    (beyond : b.content.length < bytes) :
    bufferReadAdv b bytes = b := by
  have order := b.read_le_write
  rw [length_content] at beyond
  exact dif_neg (by omega)

theorem write_readAdv_le (b : Buffer) (bytes : Nat) :
    (bufferReadAdv b bytes).write ≤ b.write := by
  rcases Nat.lt_trichotomy bytes b.content.length with less | all | more
  · rw [write_readAdv_some less]
  · rw [write_readAdv_all all]
    exact Nat.zero_le _
  · rw [readAdv_over more]

theorem read_of_content_cons {b : Buffer} {octet : UInt8} {rest : List UInt8}
    (readable : b.content = octet :: rest) :
    (bufferRead b).1 = octet ∧ (bufferRead b).2 = bufferReadAdv b 1 := by
  have some : bufferCanRead b = true := by
    rw [canRead_iff, readable]
    simp
  have positive : b.write - b.read ≠ 0 := by
    rw [← length_content, readable]
    simp
  obtain ⟨count, counted⟩ := Nat.exists_eq_succ_of_ne_zero positive
  have first : b.data b.read = octet := by
    have head := congrArg List.head? readable
    simp only [content, window, counted, List.range_succ_eq_map] at head
    simpa using head
  simp [bufferRead, some, first]

theorem content_write {b : Buffer} {octet : UInt8} (free : b.space ≠ 0) :
    (bufferWrite b octet).content = b.content ++ [octet] := by
  have writable := (canWrite_iff b).mpr free
  rw [bufferWrite, if_pos writable]
  exact content_fill (by simpa [Nat.one_le_iff_ne_zero] using free)

theorem write_write {b : Buffer} {octet : UInt8} (free : b.space ≠ 0) :
    (bufferWrite b octet).write = b.write + 1 := by
  have writable := (canWrite_iff b).mpr free
  rw [bufferWrite, if_pos writable]
  exact write_fill (by simpa [Nat.one_le_iff_ne_zero] using free)

@[simp] theorem limit_write (b : Buffer) (octet : UInt8) :
    (bufferWrite b octet).limit = b.limit := by
  unfold bufferWrite
  split
  · exact limit_fill b [octet]
  · rfl

theorem content_writeAll {b : Buffer} {octets : List UInt8}
    (fits : octets.length ≤ b.space) :
    (bufferWriteAll b octets).content = b.content ++ octets := by
  induction octets generalizing b with
  | nil => simp [bufferWriteAll]
  | cons octet octets induction =>
      simp only [List.length_cons] at fits
      have free : b.space ≠ 0 := by omega
      have room : octets.length ≤ (bufferWrite b octet).space := by
        unfold space at fits ⊢
        rw [limit_write, write_write free]
        omega
      calc
        (bufferWriteAll b (octet :: octets)).content =
            (bufferWriteAll (bufferWrite b octet) octets).content := rfl
        _ = (bufferWrite b octet).content ++ octets := induction room
        _ = b.content ++ octet :: octets := by
          rw [content_write free, List.append_assoc]
          rfl

@[simp] theorem limit_writeAll (b : Buffer) (octets : List UInt8) :
    (bufferWriteAll b octets).limit = b.limit := by
  induction octets generalizing b with
  | nil => rfl
  | cons octet octets induction =>
      exact (induction (bufferWrite b octet)).trans (limit_write b octet)

theorem content_writeAll_take (b : Buffer) (octets : List UInt8) :
    (bufferWriteAll b octets).content = b.content ++ octets.take b.space := by
  induction octets generalizing b with
  | nil => simp [bufferWriteAll]
  | cons octet octets induction =>
      change (bufferWriteAll (bufferWrite b octet) octets).content = _
      rw [induction]
      by_cases full : b.space = 0
      · have stuck : bufferWrite b octet = b := by
          rw [bufferWrite, if_neg]
          rw [canWrite_iff]
          exact not_not_intro full
        simp [stuck, full]
      · obtain ⟨room, counted⟩ := Nat.exists_eq_succ_of_ne_zero full
        have left : (bufferWrite b octet).space = room := by
          have bound := b.write_le_limit
          unfold space at counted ⊢
          rw [limit_write, write_write full]
          omega
        rw [content_write full, left, counted]
        simp

theorem content_writeAll_reset {b : Buffer} {octets : List UInt8}
    (fits : octets.length ≤ b.limit) :
    (bufferWriteAll (bufferReset b) octets).content = octets := by
  rw [content_writeAll (by simpa [space] using fits), content_reset]
  rfl

def Rewound (b : Buffer) : Prop := b.content = [] → b.write = 0

theorem rewound_init (n : Nat) (data : Nat → UInt8) :
    (bufferInit n data).Rewound :=
  fun _ => rfl

theorem rewound_of_content {b : Buffer} (some : b.content ≠ []) : b.Rewound :=
  fun nothing => absurd nothing some

theorem Rewound.space {b : Buffer} (rewound : b.Rewound)
    (nothing : b.content = []) :
    b.space = b.limit := by
  rw [Buffer.space, rewound nothing, Nat.sub_zero]

theorem rewound_fill {b : Buffer} {octets : List UInt8} (some : octets ≠ [])
    (fits : octets.length ≤ b.space) : (bufferFill b octets).Rewound := by
  apply rewound_of_content
  rw [content_fill fits]
  exact List.append_ne_nil_of_right_ne_nil _ some

theorem rewound_readAdv {b : Buffer} {bytes : Nat}
    (fits : bytes ≤ b.content.length) : (bufferReadAdv b bytes).Rewound := by
  intro nothing
  rw [content_readAdv fits, List.drop_eq_nil_iff] at nothing
  exact write_readAdv_all (Nat.le_antisymm fits nothing)

end Buffer

end SocksProxy
