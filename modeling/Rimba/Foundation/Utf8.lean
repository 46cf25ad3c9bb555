import Mathlib.Algebra.Ring.Nat
import Mathlib.Data.List.Basic
import Mathlib.Order.Basic

/-! # UTF-8 with replacement

A decoder of UTF-8 that reads every sequence of bytes. A byte that starts no character,
and the bytes of a character that does not go on, are read as one replacement character.
It is a machine over the bytes, so a text that comes in parts can be decoded part by
part, unless a part ends within a character that the next one goes on with: then, and
only then, the whole is read differently (`Foundation.Utf8.decode_parts_iff`).
-/

namespace Foundation.Utf8

/-- U+FFFD -/
def replacement : Char := '\ufffd'

/-- A character of which some bytes are read. The byte it goes on with is between two
bounds, and behind it are bytes from 80 to BF. -/
structure Begun where
  bits : ℕ
  low : ℕ
  high : ℕ
  more : ℕ
  continues : 0x80 ≤ low ∧ high ≤ 0xbf
  /-- What it comes to is not ASCII. -/
  beyond : 0x80 ≤ (64 * bits + (low - 0x80)) * 64 ^ more

/-- The byte is one the character goes on with. -/
def Begun.Accepts (begun : Begun) (byte : UInt8) : Prop :=
  begun.low ≤ byte.toNat ∧ byte.toNat ≤ begun.high

instance (begun : Begun) (byte : UInt8) : Decidable (begun.Accepts byte) :=
  inferInstanceAs (Decidable (_ ∧ _))

/-- A character with an unrestricted second byte. -/
def Begun.usual (bits more : ℕ) (beyond : 0x80 ≤ 64 * bits * 64 ^ more) : Begun :=
  ⟨bits, 0x80, 0xbf, more, ⟨Nat.le_refl _, Nat.le_refl _⟩, by rwa [Nat.sub_self, Nat.add_zero]⟩

theorem usual_beyond {bits more : ℕ} (large : 2 ≤ bits * 64 ^ more) :
    0x80 ≤ 64 * bits * 64 ^ more := by
  rw [Nat.mul_assoc]
  omega

/-- What a byte comes to at the start of a character, and the character it begins. -/
def start (byte : UInt8) : List Char × Option Begun :=
  let n := byte.toNat
  if n < 0x80 then ([Char.ofNat n], none)
  else if two : 0xc2 ≤ n ∧ n ≤ 0xdf then
    ([], some (.usual (n - 0xc0) 0 (usual_beyond (by omega))))
  else if n = 0xe0 then ([], some ⟨0, 0xa0, 0xbf, 1, by decide, by decide⟩)
  else if n = 0xed then ([], some ⟨0xd, 0x80, 0x9f, 1, by decide, by decide⟩)
  else if three : 0xe1 ≤ n ∧ n ≤ 0xef then
    ([], some (.usual (n - 0xe0) 1 (usual_beyond (by omega))))
  else if n = 0xf0 then ([], some ⟨0, 0x90, 0xbf, 2, by decide, by decide⟩)
  else if n = 0xf4 then ([], some ⟨4, 0x80, 0x8f, 2, by decide, by decide⟩)
  else if four : 0xf1 ≤ n ∧ n ≤ 0xf3 then
    ([], some (.usual (n - 0xf0) 2 (usual_beyond (by omega))))
  else ([replacement], none)

/-- The bits of a character with one more byte. -/
def Begun.bitsWith (begun : Begun) (byte : UInt8) : ℕ := 64 * begun.bits + (byte.toNat - 0x80)

theorem Begun.beyond_bitsWith {begun : Begun} {byte : UInt8} (accepts : begun.Accepts byte) :
    0x80 ≤ begun.bitsWith byte * 64 ^ begun.more :=
  calc 0x80 ≤ (64 * begun.bits + (begun.low - 0x80)) * 64 ^ begun.more := begun.beyond
    _ ≤ begun.bitsWith byte * 64 ^ begun.more :=
        Nat.mul_le_mul_right _ (Nat.add_le_add_left (Nat.sub_le_sub_right accepts.1 _) _)

/-- What a byte comes to that the character goes on with. -/
def Begun.next (begun : Begun) (byte : UInt8) (accepts : begun.Accepts byte) :
    List Char × Option Begun :=
  match counted : begun.more with
  | 0 => ([Char.ofNat (begun.bitsWith byte)], none)
  | more + 1 =>
      ([], some (.usual (begun.bitsWith byte) more (by
        have beyond := Begun.beyond_bitsWith accepts
        rwa [counted, Nat.pow_succ', ← Nat.mul_assoc, Nat.mul_comm _ 64] at beyond)))

/-- What a byte comes to. -/
def step : Option Begun → UInt8 → List Char × Option Begun
  | none, byte => start byte
  | some begun, byte =>
      if accepts : begun.Accepts byte then begun.next byte accepts
      else (replacement :: (start byte).1, (start byte).2)

/-- What is read of a character that does not go on. -/
def cutOff : Option Begun → List Char
  | none => []
  | some _ => [replacement]

/-- The characters that end within some bytes. -/
def whole (begun : Option Begun) : List UInt8 → List Char
  | [] => []
  | byte :: rest => (step begun byte).1 ++ whole (step begun byte).2 rest

/-- The character begun behind some bytes. -/
def behind (begun : Option Begun) : List UInt8 → Option Begun
  | [] => begun
  | byte :: rest => behind (step begun byte).2 rest

/-- The text of some bytes, behind a character begun. -/
def decodeFrom (begun : Option Begun) : List UInt8 → List Char
  | [] => cutOff begun
  | byte :: rest => (step begun byte).1 ++ decodeFrom (step begun byte).2 rest

/-- `decode("utf-8", "replace")` -/
def decode (bytes : List UInt8) : List Char := decodeFrom none bytes

example : decode [0xc3, 0xa9, 0xe2, 0x82, 0x41] = ['\u00e9', replacement, 'A'] := by decide

theorem of_dite {α : Type*} {motive : α → Prop} {c : Prop} [Decidable c] {taken : c → α}
    {other : ¬c → α} (positive : ∀ h, motive (taken h)) (negative : ∀ h, motive (other h)) :
    motive (dite c taken other) := by
  by_cases h : c
  · rw [dif_pos h]
    exact positive h
  · rw [dif_neg h]
    exact negative h

/-- An ASCII byte is a character, and another byte begins one or is replaced. -/
def Outcome (byte : UInt8) (result : List Char × Option Begun) : Prop :=
  result = ([Char.ofNat byte.toNat], none) ∨ (∃ begun, result = ([], some begun)) ∨
    result = ([replacement], none)

theorem start_cases (byte : UInt8) : Outcome byte (start byte) := by
  have begins (begun : Begun) : Outcome byte ([], some begun) := .inr (.inl ⟨begun, rfl⟩)
  unfold start
  exact iteInduction (motive := Outcome byte) (fun _ => .inl rfl) fun _ =>
    of_dite (motive := Outcome byte) (fun _ => begins _) fun _ =>
    iteInduction (motive := Outcome byte) (fun _ => begins _) fun _ =>
    iteInduction (motive := Outcome byte) (fun _ => begins _) fun _ =>
    of_dite (motive := Outcome byte) (fun _ => begins _) fun _ =>
    iteInduction (motive := Outcome byte) (fun _ => begins _) fun _ =>
    iteInduction (motive := Outcome byte) (fun _ => begins _) fun _ =>
    of_dite (motive := Outcome byte) (fun _ => begins _) fun _ => .inr (.inr rfl)

theorem decodeFrom_append (begun : Option Begun) (front back : List UInt8) :
    decodeFrom begun (front ++ back) =
      whole begun front ++ decodeFrom (behind begun front) back := by
  induction front generalizing begun with
  | nil => rfl
  | cons byte front ih =>
      rw [List.cons_append, decodeFrom, whole, behind, ih, List.append_assoc]

theorem decodeFrom_eq (begun : Option Begun) (bytes : List UInt8) :
    decodeFrom begun bytes = whole begun bytes ++ cutOff (behind begun bytes) := by
  have ended := decodeFrom_append begun bytes []
  rwa [List.append_nil] at ended

theorem behind_append (begun : Option Begun) (front back : List UInt8) :
    behind begun (front ++ back) = behind (behind begun front) back := by
  induction front generalizing begun with
  | nil => rfl
  | cons byte front ih => rw [List.cons_append, behind, behind, ih]

/-- The bytes go on with the character. -/
def GoesOn : Option Begun → List UInt8 → Prop
  | some begun, byte :: _ => begun.Accepts byte
  | _, _ => False

instance (begun : Option Begun) (bytes : List UInt8) : Decidable (GoesOn begun bytes) := by
  cases begun <;> cases bytes <;> unfold GoesOn <;> infer_instance

/-- Between the two the text is cut within a character. -/
def Cut (front back : List UInt8) : Prop := GoesOn (behind none front) back

instance (front back : List UInt8) : Decidable (Cut front back) :=
  inferInstanceAs (Decidable (GoesOn _ _))

theorem not_goesOn_none {bytes : List UInt8} : ¬ GoesOn none bytes := by
  cases bytes <;> exact id

theorem not_goesOn_nil {begun : Option Begun} : ¬ GoesOn begun [] := by
  cases begun <;> exact id

theorem GoesOn.append {begun : Option Begun} {front : List UInt8} (goesOn : GoesOn begun front)
    (back : List UInt8) : GoesOn begun (front ++ back) := by
  cases front with
  | nil => exact absurd goesOn not_goesOn_nil
  | cons byte front =>
      cases begun with
      | none => exact absurd goesOn not_goesOn_none
      | some begun => exact goesOn

/-- A byte the character does not go on with is read as at the start of one. -/
theorem step_of_not_goesOn {begun : Option Begun} {byte : UInt8} {rest : List UInt8}
    (ends : ¬ GoesOn begun (byte :: rest)) :
    step begun byte = (cutOff begun ++ (start byte).1, (start byte).2) := by
  cases begun with
  | none => rfl
  | some begun => exact dif_neg ends

theorem behind_of_not_goesOn {begun : Option Begun} {byte : UInt8} {rest : List UInt8}
    (ends : ¬ GoesOn begun (byte :: rest)) :
    behind begun (byte :: rest) = behind none (byte :: rest) := by
  rw [behind, step_of_not_goesOn ends, behind, step]

theorem decodeFrom_of_not_goesOn {begun : Option Begun} {bytes : List UInt8}
    (ends : ¬ GoesOn begun bytes) : decodeFrom begun bytes = cutOff begun ++ decode bytes := by
  cases bytes with
  | nil => rw [decodeFrom, decode, decodeFrom, cutOff, List.append_nil]
  | cons byte rest =>
      rw [decodeFrom, step_of_not_goesOn ends, decode, decodeFrom, step, List.append_assoc]

/-- A byte that a character goes on with starts none. -/
theorem start_of_accepts {begun : Begun} {byte : UInt8} (accepts : begun.Accepts byte) :
    start byte = ([replacement], none) := by
  obtain ⟨low, high⟩ := accepts
  obtain ⟨lowest, highest⟩ := begun.continues
  have bounds : 0x80 ≤ byte.toNat ∧ byte.toNat ≤ 0xbf := ⟨by omega, by omega⟩
  rw [start, if_neg (by omega), dif_neg (by omega), if_neg (by omega), if_neg (by omega),
    dif_neg (by omega), if_neg (by omega), if_neg (by omega), dif_neg (by omega)]

/-- A byte that a character goes on with makes one character at most, and none when
it does not end there. -/
theorem length_next (begun : Begun) (byte : UInt8) (accepts : begun.Accepts byte) :
    (begun.next byte accepts).1.length + (cutOff (begun.next byte accepts).2).length = 1 := by
  unfold Begun.next
  split <;> rfl

/-- Cut off from the character begun, some bytes make no less. -/
theorem length_decodeFrom_le (begun : Option Begun) (bytes : List UInt8) :
    (decodeFrom begun bytes).length ≤ (cutOff begun).length + (decode bytes).length ∧
      (GoesOn begun bytes →
        (decodeFrom begun bytes).length < (cutOff begun).length + (decode bytes).length) := by
  induction bytes generalizing begun with
  | nil => exact ⟨Nat.le_add_right _ _, fun goesOn => absurd goesOn not_goesOn_nil⟩
  | cons byte rest ih =>
      by_cases goesOn : GoesOn begun (byte :: rest)
      · cases begun with
        | none => exact absurd goesOn not_goesOn_none
        | some begun =>
            have accepts : begun.Accepts byte := goesOn
            have further := (ih (begun.next byte accepts).2).1
            have made := length_next begun byte accepts
            have apart : (decode (byte :: rest)).length = 1 + (decode rest).length := by
              rw [decode, decodeFrom, step, start_of_accepts accepts, List.length_append]
              rfl
            have joined : (decodeFrom (some begun) (byte :: rest)).length =
                (begun.next byte accepts).1.length +
                  (decodeFrom (begun.next byte accepts).2 rest).length := by
              rw [decodeFrom, step, dif_pos accepts, List.length_append]
            have one : (cutOff (some begun)).length = 1 := rfl
            have less : (decodeFrom (some begun) (byte :: rest)).length <
                (cutOff (some begun)).length + (decode (byte :: rest)).length := by omega
            exact ⟨Nat.le_of_lt less, fun _ => less⟩
      · have same := congrArg List.length (decodeFrom_of_not_goesOn goesOn)
        rw [List.length_append] at same
        exact ⟨Nat.le_of_eq same, fun going => absurd going goesOn⟩

/-- Decoding in two parts. -/
theorem decode_append {front back : List UInt8} (uncut : ¬ Cut front back) :
    decode (front ++ back) = decode front ++ decode back := by
  calc decode (front ++ back)
      = whole none front ++ decodeFrom (behind none front) back := decodeFrom_append ..
    _ = whole none front ++ (cutOff (behind none front) ++ decode back) := by
        rw [decodeFrom_of_not_goesOn uncut]
    _ = decode front ++ decode back := by
        rw [← List.append_assoc, ← decodeFrom_eq, ← decode]

theorem length_decode_append_le (front back : List UInt8) :
    (decode (front ++ back)).length ≤ (decode front).length + (decode back).length ∧
      (Cut front back →
        (decode (front ++ back)).length < (decode front).length + (decode back).length) := by
  obtain ⟨least, less⟩ := length_decodeFrom_le (behind none front) back
  rw [decode, decodeFrom_append, decode, decodeFrom_eq none front, List.length_append,
    List.length_append]
  exact ⟨by omega, fun cut => by have fewer := less cut; omega⟩

/-- A cut further on is one of the text behind a part that is not cut off itself. -/
theorem cut_append_iff {front middle back : List UInt8} (uncut : ¬ Cut front (middle ++ back)) :
    Cut (front ++ middle) back ↔ Cut middle back := by
  cases middle with
  | nil =>
      rw [List.append_nil]
      exact iff_of_false uncut not_goesOn_none
  | cons byte middle =>
      have ends : ¬ GoesOn (behind none front) (byte :: middle) :=
        fun goesOn => uncut (goesOn.append back)
      rw [Cut, behind_append, behind_of_not_goesOn ends, Cut]

/-- What is decoded of the front of a text is the front of what is decoded, but for the
replacement of a character that is cut. -/
theorem decode_front {front back : List UInt8} (uncut : ¬ Cut front back) :
    decode front <+: decode (front ++ back) := by
  rw [decode_append uncut]
  exact List.prefix_append _ _

theorem decode_of_cut {front back : List UInt8} (cut : Cut front back) :
    ∃ text, decode front = text ++ [replacement] ∧ text <+: decode (front ++ back) := by
  refine ⟨whole none front, ?_, ?_⟩
  · rw [decode, decodeFrom_eq]
    rw [Cut] at cut
    cases begun : behind none front with
    | none =>
        rw [begun] at cut
        exact absurd cut not_goesOn_none
    | some begun => rfl
  · rw [decode, decodeFrom_append]
    exact List.prefix_append _ _

theorem decodeFrom_some_ne_nil (begun : Begun) (bytes : List UInt8) :
    decodeFrom (some begun) bytes ≠ [] := by
  induction bytes generalizing begun with
  | nil => exact List.cons_ne_nil _ _
  | cons byte rest ih =>
      rw [decodeFrom, step]
      split
      · next accepts =>
          unfold Begun.next
          split
          · exact List.cons_ne_nil _ _
          · exact ih _
      · exact List.cons_ne_nil _ _

/-- Bytes make characters. -/
theorem decode_ne_nil {bytes : List UInt8} (some_byte : bytes ≠ []) : decode bytes ≠ [] := by
  cases bytes with
  | nil => exact absurd rfl some_byte
  | cons byte rest =>
      rw [decode, decodeFrom, step]
      rcases start_cases byte with ascii | ⟨begun, begins⟩ | replaced
      · rw [ascii]
        exact List.cons_ne_nil _ _
      · rw [begins]
        exact decodeFrom_some_ne_nil begun rest
      · rw [replaced]
        exact List.cons_ne_nil _ _

theorem ofNat_lineFeed {n : ℕ} (made : Char.ofNat n = '\n') : n = 0x0a := by
  by_cases valid : n.isValidChar
  · rw [Char.ofNat, dif_pos valid] at made
    exact congrArg Char.toNat made
  · rw [Char.ofNat, dif_neg valid] at made
    exact absurd made (by decide)

theorem start_lineFeed {byte : UInt8} (made : '\n' ∈ (start byte).1) : byte = 0x0a := by
  rcases start_cases byte with ascii | ⟨begun, begins⟩ | replaced
  · rw [ascii] at made
    exact UInt8.toNat_inj.mp (ofNat_lineFeed (List.mem_singleton.mp made).symm)
  · rw [begins] at made
    exact absurd made List.not_mem_nil
  · rw [replaced] at made
    exact absurd (List.mem_singleton.mp made) (by decide)

/-- Only the byte of a line feed makes one. -/
theorem step_lineFeed {begun : Option Begun} {byte : UInt8} (made : '\n' ∈ (step begun byte).1) :
    byte = 0x0a := by
  cases begun with
  | none => exact start_lineFeed made
  | some begun =>
      rw [step] at made
      split at made
      · next accepts =>
          unfold Begun.next at made
          split at made
          · next counted =>
              have beyond := Begun.beyond_bitsWith accepts
              have ten := ofNat_lineFeed (List.mem_singleton.mp made).symm
              rw [counted, ten] at beyond
              exact absurd beyond (by decide)
          · exact absurd made List.not_mem_nil
      · rcases List.mem_cons.mp made with replaced | made
        · exact absurd replaced (by decide)
        · exact start_lineFeed made

theorem decodeFrom_lineFeed {begun : Option Begun} {bytes : List UInt8}
    (made : '\n' ∈ decodeFrom begun bytes) : 0x0a ∈ bytes := by
  induction bytes generalizing begun with
  | nil =>
      cases begun with
      | none => exact absurd made List.not_mem_nil
      | some begun => exact absurd (List.mem_singleton.mp made) (by decide)
  | cons byte rest ih =>
      rcases List.mem_append.mp made with made | made
      · rw [step_lineFeed made]
        exact List.mem_cons_self
      · exact List.mem_cons_of_mem _ (ih made)

/-- No character is cut before a line feed. -/
theorem not_cut_lineFeed (front back : List UInt8) : ¬ Cut front (0x0a :: back) := by
  rw [Cut]
  cases behind none front with
  | none => exact id
  | some begun =>
      intro accepts
      have least : 0x80 ≤ (0x0a : UInt8).toNat := Nat.le_trans begun.continues.1 accepts.1
      exact absurd least (by decide)

/-- A line is decoded as a line. -/
theorem decode_line {bytes : List UInt8} (line : 0x0a ∉ bytes.dropLast) :
    '\n' ∉ (decode bytes).dropLast := by
  rcases List.eq_nil_or_concat bytes with rfl | ⟨front, last, rfl⟩
  · exact List.not_mem_nil
  · rw [List.concat_eq_append, List.dropLast_concat] at line
    rw [List.concat_eq_append]
    by_cases feed : last = 0x0a
    · subst feed
      have ended : decode [0x0a] = ['\n'] := by decide
      rw [decode_append (not_cut_lineFeed front []), ended, List.dropLast_concat]
      exact fun made => line (decodeFrom_lineFeed made)
    · intro made
      have member := decodeFrom_lineFeed (List.dropLast_subset _ made)
      rcases List.mem_append.mp member with member | member
      · exact line member
      · exact feed (List.mem_singleton.mp member).symm

/-- No part ends within a character that the next ones go on with. -/
def Uncut (parts : List (List UInt8)) : Prop :=
  ∀ front back, parts = front ++ back → ¬ Cut front.flatten back.flatten

theorem uncut_cons {part : List UInt8} {parts : List (List UInt8)} :
    Uncut (part :: parts) ↔ ¬ Cut part parts.flatten ∧ Uncut parts := by
  constructor
  · intro uncut
    have first : ¬ Cut part parts.flatten := by
      have split := uncut [part] parts rfl
      rwa [List.flatten_singleton] at split
    refine ⟨first, fun front back split cut => ?_⟩
    apply uncut (part :: front) back (by rw [split, List.cons_append])
    rw [split, List.flatten_append] at first
    rw [List.flatten_cons]
    exact (cut_append_iff first).mpr cut
  · rintro ⟨first, rest⟩ front back split
    cases front with
    | nil => exact not_goesOn_none
    | cons other front =>
        obtain ⟨rfl, rfl⟩ := List.cons.inj split
        rw [List.append_eq, List.flatten_append] at first
        rw [List.flatten_cons, cut_append_iff first]
        exact rest front back rfl

theorem uncut_nil : Uncut [] := fun front back split => by
  obtain ⟨rfl, rfl⟩ := List.append_eq_nil_iff.mp split.symm
  exact not_goesOn_none

/-- The first parts are cut like the whole. -/
theorem Uncut.take {parts : List (List UInt8)} (uncut : Uncut parts) (count : ℕ) :
    Uncut (parts.take count) := fun front back split cut => by
  apply uncut front (back ++ parts.drop count)
  · rw [← List.append_assoc, ← split, List.take_append_drop]
  · rw [List.flatten_append]
    exact cut.append _

theorem length_decode_parts_le (parts : List (List UInt8)) :
    (decode parts.flatten).length ≤ (parts.map decode).flatten.length := by
  induction parts with
  | nil => exact Nat.zero_le _
  | cons part parts ih =>
      have least := (length_decode_append_le part parts.flatten).1
      rw [List.flatten_cons, List.map_cons, List.flatten_cons, List.length_append]
      omega

/-- **Decoding in parts.** Part by part the text is decoded as a whole exactly when no
part ends within a character that the next one goes on with. -/
theorem decode_parts_iff {parts : List (List UInt8)} :
    (parts.map decode).flatten = decode parts.flatten ↔ Uncut parts := by
  induction parts with
  | nil => exact iff_of_true rfl uncut_nil
  | cons part parts ih =>
      rw [uncut_cons, List.map_cons, List.flatten_cons, List.flatten_cons]
      constructor
      · intro same
        have further := length_decode_parts_le parts
        obtain ⟨-, less⟩ := length_decode_append_le part parts.flatten
        have whole := congrArg List.length same
        rw [List.length_append] at whole
        have first : ¬ Cut part parts.flatten := fun cut => by
          have fewer := less cut
          omega
        rw [decode_append first] at same
        exact ⟨first, ih.mp (List.append_cancel_left same)⟩
      · rintro ⟨first, rest⟩
        rw [decode_append first, ih.mpr rest]

end Foundation.Utf8
