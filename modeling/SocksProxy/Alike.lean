import SocksProxy.Lib.Unwinding
import SocksProxy.Parsers
import SocksProxy.Selector

/-! What the operations on buffers and on the selector depend on: neither the
octets outside the readable part of a block nor the addresses of objects. -/

namespace SocksProxy

open Unwinding

structure Buffer.Alike (b b' : Buffer) : Prop where
  limit : b'.limit = b.limit
  write : b'.write = b.write
  content : b'.content = b.content

namespace Buffer.Alike

variable {b b' : Buffer}

theorem space (alike : b.Alike b') : b'.space = b.space := by
  rw [Buffer.space, Buffer.space, alike.limit, alike.write]

theorem canRead (alike : b.Alike b') : bufferCanRead b' = bufferCanRead b := by
  rw [Bool.eq_iff_iff, canRead_iff, canRead_iff, alike.content]

theorem canWrite (alike : b.Alike b') :
    bufferCanWrite b' = bufferCanWrite b := by
  rw [Bool.eq_iff_iff, canWrite_iff, canWrite_iff, alike.space]

theorem init (n : Nat) (data data' : Nat → UInt8) :
    (bufferInit n data).Alike (bufferInit n data') := ⟨rfl, rfl, rfl⟩

theorem reset (alike : b.Alike b') : (bufferReset b).Alike (bufferReset b') :=
  ⟨alike.limit, rfl, rfl⟩

theorem fill (alike : b.Alike b') (octets : List UInt8) :
    (bufferFill b octets).Alike (bufferFill b' octets) := by
  by_cases fits : octets.length ≤ b.space
  · have fits' : octets.length ≤ b'.space := alike.space ▸ fits
    refine ⟨?_, ?_, ?_⟩
    · rw [limit_fill, limit_fill, alike.limit]
    · rw [write_fill fits, write_fill fits', alike.write]
    · rw [content_fill fits, content_fill fits', alike.content]
  · have stays {b : Buffer} (full : ¬ octets.length ≤ b.space) :
        (bufferFill b octets).write = b.write ∧
          (bufferFill b octets).content = b.content := by
      have bound := b.write_le_limit
      have order := b.read_le_write
      have beyond : ¬ b.write + octets.length ≤ b.limit := by
        rw [Buffer.space] at full
        omega
      simp only [bufferFill, bufferWriteAdv, beyond, dite_false, Buffer.content]
      exact ⟨trivial, Window.window_store_before _ _ _ _ _ (by omega)⟩
    have fits' : ¬ octets.length ≤ b'.space := alike.space ▸ fits
    refine ⟨?_, ?_, ?_⟩
    · rw [limit_fill, limit_fill, alike.limit]
    · rw [(stays fits).1, (stays fits').1, alike.write]
    · rw [(stays fits).2, (stays fits').2, alike.content]

theorem readAdv (alike : b.Alike b') (bytes : Nat) :
    (bufferReadAdv b bytes).Alike (bufferReadAdv b' bytes) := by
  have length : b'.content.length = b.content.length := congrArg _ alike.content
  refine ⟨?_, ?_, ?_⟩
  · rw [limit_readAdv, limit_readAdv, alike.limit]
  · rcases Nat.lt_trichotomy bytes b.content.length with some | all | beyond
    · rw [write_readAdv_some some, write_readAdv_some (length ▸ some),
        alike.write]
    · rw [write_readAdv_all all, write_readAdv_all (length ▸ all)]
    · rw [readAdv_over beyond, readAdv_over (length ▸ beyond), alike.write]
  · by_cases fits : bytes ≤ b.content.length
    · rw [content_readAdv fits, content_readAdv (length ▸ fits), alike.content]
    · rw [readAdv_over (by omega), readAdv_over (by omega), alike.content]

theorem read (alike : b.Alike b') :
    (bufferRead b').1 = (bufferRead b).1 ∧
      (bufferRead b).2.Alike (bufferRead b').2 := by
  cases readable : b.content with
  | nil =>
      have stuck := (canRead_eq_false_iff b).mpr readable
      have stuck' := alike.canRead.trans stuck
      simp only [bufferRead, stuck, stuck', Bool.false_eq_true, if_false]
      exact ⟨trivial, alike⟩
  | cons octet rest =>
      obtain ⟨first, next⟩ := read_of_content_cons readable
      obtain ⟨first', next'⟩ :=
        read_of_content_cons (alike.content.trans readable)
      rw [first, first', next, next']
      exact ⟨rfl, alike.readAdv 1⟩

theorem writeAll (alike : b.Alike b') (octets : List UInt8) :
    (bufferWriteAll b octets).Alike (bufferWriteAll b' octets) := by
  induction octets generalizing b b' with
  | nil => exact alike
  | cons octet octets induction =>
      apply induction
      unfold bufferWrite
      rw [alike.canWrite]
      split
      · exact alike.fill [octet]
      · exact alike

end Buffer.Alike

theorem agree_parserConsume {Parser : Type} (feed : Parser → UInt8 → Parser)
    (finished : Parser → Bool) (p : Parser) {b b' : Buffer}
    (alike : b.Alike b') :
    ∃ q rest rest' stop, parserConsume feed finished p b = (q, rest, stop) ∧
      parserConsume feed finished p b' = (q, rest', stop) ∧
      rest.Alike rest' := by
  have counted : b'.write - b'.read = b.write - b.read := by
    rw [← Buffer.length_content, ← Buffer.length_content, alike.content]
  unfold parserConsume
  rw [counted]
  generalize b.write - b.read = fuel
  clear counted
  induction fuel generalizing p b b' with
  | zero => exact ⟨p, b, b', false, rfl, rfl, alike⟩
  | succ fuel induction =>
      obtain ⟨octet, rest⟩ := alike.read
      unfold consumeLoop
      rw [alike.canRead]
      split
      · dsimp only
        rw [octet]
        split
        · exact ⟨_, _, _, true, rfl, rfl, rest⟩
        · exact induction _ rest
      · exact ⟨p, b, b', false, rfl, rfl, alike⟩

/-- Items that differ at most in the addresses of objects, among which that of
the object stands for itself. -/
structure Item.Alike (p p' : Ptr) (item item' : Item) : Prop where
  interest : item'.interest = item.interest
  handler : item'.handler = item.handler
  owned : item.handler = .socks5 → (item'.data = p' ↔ item.data = p)

structure Selector.Alike (p p' : Ptr) (s s' : Selector) : Prop where
  items : ∀ fd, Option.Rel (Item.Alike p p') (s.items fd) (s'.items fd)
  maxFd : s'.maxFd = s.maxFd
  slaveR : s'.slaveR = s.slaveR
  slaveW : s'.slaveW = s.slaveW

namespace Selector.Alike

variable {p p' : Ptr} {s s' : Selector}

theorem setItem (alike : s.Alike p p' s') (fd : Fd) {item item' : Option Item}
    (same : Option.Rel (Item.Alike p p') item item') :
    (s.setItem fd item).Alike p p' (s'.setItem fd item') := by
  refine ⟨fun other => ?_, alike.maxFd, alike.slaveR, alike.slaveW⟩
  unfold Selector.setItem
  dsimp only
  split
  · exact same
  · exact alike.items other

theorem isSome (alike : s.Alike p p' s') (fd : Fd) :
    (s'.items fd).isSome = (s.items fd).isSome := by
  have both := alike.items fd
  generalize s.items fd = item at both ⊢
  generalize s'.items fd = item' at both ⊢
  cases both <;> rfl

theorem setInterest (alike : s.Alike p p' s') (fd : Fd) (i : Interest) :
    Agree (Selector.Alike p p') (selectorSetInterest s fd i)
      (selectorSetInterest s' fd i) := by
  have both := alike.items fd
  unfold selectorSetInterest
  split
  · exact ⟨alike, rfl⟩
  · generalize s.items fd = item at both ⊢
    generalize s'.items fd = item' at both ⊢
    cases both with
    | none => exact ⟨alike, rfl⟩
    | some same =>
        exact ⟨alike.setItem fd (.some ⟨rfl, same.handler, same.owned⟩), rfl⟩

theorem register (alike : s.Alike p p' s') (fd : Fd) (i : Interest) :
    Agree (Selector.Alike p p') (selectorRegister s fd .socks5 i p)
      (selectorRegister s' fd .socks5 i p') := by
  have both := alike.items fd
  unfold selectorRegister
  split
  · exact ⟨alike, rfl⟩
  · generalize s.items fd = item at both ⊢
    generalize s'.items fd = item' at both ⊢
    cases both with
    | some same => exact ⟨alike, rfl⟩
    | none =>
        have same : Item.Alike p p' ⟨i, .socks5, p⟩ ⟨i, .socks5, p'⟩ :=
          ⟨rfl, rfl, fun _ => ⟨fun _ => rfl, fun _ => rfl⟩⟩
        have registered := alike.setItem fd (.some same)
        refine ⟨⟨registered.items, ?_, alike.slaveR, alike.slaveW⟩, rfl⟩
        rw [alike.maxFd]

theorem remove (alike : s.Alike p p' s') (fd : Fd) :
    (selectorRemove s fd).Alike p p' (selectorRemove s' fd) := by
  have removed := alike.setItem fd .none
  refine ⟨removed.items, ?_, alike.slaveR, alike.slaveW⟩
  dsimp only [selectorRemove, itemsMaxFd]
  rw [removed.maxFd]
  simp only [removed.isSome]

end Selector.Alike

end SocksProxy
