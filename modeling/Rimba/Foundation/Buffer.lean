import Mathlib.Data.List.Basic

/-! # Buffers filled by writes at offsets

A buffer keeps what no write covered. When every write starts where the one
before it ended and together they are as long as the buffer, nothing of its old
contents is left (`Foundation.Buffer.writeAll_whole`), and every position has been
written exactly once (`Foundation.Buffer.covers_of_consecutive`).
-/

namespace Foundation.Buffer

variable {Item : Type*}

/-- Copy items over a buffer at an offset. -/
def memcpy (buffer : List Item) (offset : ℕ) (source : List Item) : List Item :=
  buffer.take offset ++ source ++ buffer.drop (offset + source.length)

/-- Carry out writes, each at its offset, in their order. -/
def writeAll (buffer : List Item) (writes : List (ℕ × List Item)) : List Item :=
  writes.foldl (fun buffer write => memcpy buffer write.1 write.2) buffer

/-- Each write starts where the one before it ended. -/
def Consecutive : ℕ → List (ℕ × List Item) → Prop
  | _, [] => True
  | start, (offset, source) :: rest => offset = start ∧ Consecutive (start + source.length) rest

/-- What writes leave, taken one behind the other. -/
def written (writes : List (ℕ × List Item)) : List Item := writes.flatMap Prod.snd

theorem memcpy_behind (front rest source : List Item) :
    memcpy (front ++ rest) front.length source = front ++ source ++ rest.drop source.length := by
  simp only [memcpy, List.take_left, List.drop_append, List.drop_of_length_le (Nat.le_add_right ..),
    Nat.add_sub_cancel_left, List.nil_append]

theorem writeAll_consecutive {writes : List (ℕ × List Item)} {front : List Item}
    (consecutive : Consecutive front.length writes) (rest : List Item) :
    writeAll (front ++ rest) writes =
      front ++ written writes ++ rest.drop (written writes).length := by
  induction writes generalizing front rest with
  | nil => simp only [writeAll, List.foldl_nil, written, List.flatMap_nil, List.append_nil,
      List.length_nil, List.drop_zero]
  | cons write writes ih =>
      obtain ⟨offset, source⟩ := write
      obtain ⟨rfl, later⟩ := consecutive
      have step : writeAll (front ++ rest) ((front.length, source) :: writes) =
          writeAll ((front ++ source) ++ rest.drop source.length) writes := by
        rw [writeAll, List.foldl_cons, memcpy_behind]
        rfl
      rw [step, ih (by rw [List.length_append]; exact later)]
      simp only [written, List.flatMap_cons, List.append_assoc, List.length_append, List.drop_drop]

/-- Consecutive writes as long as the buffer leave nothing of its old contents. -/
theorem writeAll_whole {buffer : List Item} {writes : List (ℕ × List Item)}
    (consecutive : Consecutive 0 writes) (whole : buffer.length = (written writes).length) :
    writeAll buffer writes = written writes := by
  have filled := @writeAll_consecutive _ writes [] consecutive buffer
  rw [List.nil_append, List.nil_append, ← whole, List.drop_length, List.append_nil] at filled
  exact filled

/-- Every position of a buffer is written exactly once, and none behind it. -/
def Covers (size : ℕ) (writes : List (ℕ × List Item)) : Prop :=
  ∀ position, writes.countP
      (fun write => write.1 ≤ position && position < write.1 + write.2.length) =
    if position < size then 1 else 0

theorem countP_consecutive {start : ℕ} {writes : List (ℕ × List Item)}
    (consecutive : Consecutive start writes) (position : ℕ) :
    writes.countP (fun write => write.1 ≤ position && position < write.1 + write.2.length) =
      if start ≤ position ∧ position < start + (written writes).length then 1 else 0 := by
  induction writes generalizing start with
  | nil =>
      rw [List.countP_nil, if_neg]
      simp only [written, List.flatMap_nil, List.length_nil]
      omega
  | cons write writes ih =>
      obtain ⟨offset, source⟩ := write
      obtain ⟨rfl, later⟩ := consecutive
      have size : (written ((offset, source) :: writes)).length =
          source.length + (written writes).length := by
        rw [written, List.flatMap_cons, List.length_append]
        rfl
      simp only [List.countP_cons, ih later, size, Bool.and_eq_true, decide_eq_true_eq]
      split_ifs <;> omega

/-- Consecutive writes as long as the buffer cover it. -/
theorem covers_of_consecutive {size : ℕ} {writes : List (ℕ × List Item)}
    (consecutive : Consecutive 0 writes) (whole : size = (written writes).length) :
    Covers size writes := by
  intro position
  rw [countP_consecutive consecutive position, whole, Nat.zero_add]
  simp only [Nat.zero_le, true_and]

end Foundation.Buffer
