import Rimba.Capture.Frame
import Rimba.Foundation.Framing

/-! # Chains of information elements

The beacon tools walk the information elements of a frame: an element id, a length
and that many octets, one element behind the other. `walk_ies` reads back what an
encoder wrote, and of any octets it reads the elements in front and says whether
they are all there is (`Rimba.Capture.walkIes_roundTrip`).
-/

namespace Rimba.Capture

/-- An information element. One octet holds the length of its payload. -/
@[ext] structure Element where
  eid : UInt8
  payload : Octets
  fits : payload.length ≤ 255
  deriving DecidableEq

namespace Element

/-- The element id, the length and the payload. -/
def encode (element : Element) : Octets :=
  element.eid :: UInt8.ofNat element.payload.length :: element.payload

/-- The length octet of an element. -/
theorem toNat_length (element : Element) :
    (UInt8.ofNat element.payload.length).toNat = element.payload.length := by
  have fits := element.fits
  rw [UInt8.toNat_ofNat']
  omega

@[simp] theorem length_encode (element : Element) :
    element.encode.length = 2 + element.payload.length := by
  rw [encode, List.length_cons, List.length_cons]
  omega

end Element

theorem length_take_toNat_le (octets : Octets) (ln : UInt8) :
    (octets.take ln.toNat).length ≤ 255 := by
  have bound := ln.toNat_lt
  rw [List.length_take]
  omega

/-- `ies[i]` and `ies[i + 2:i + 2 + ln]` with `ln` the octet between them. -/
def elementAt (ies : Octets) (i : ℕ) (room : i + 2 ≤ ies.length) : Element where
  eid := ies[i]
  payload := slice ies (i + 2) (i + 2 + ies[i + 1].toNat)
  fits := by
    rw [slice, Nat.add_sub_cancel_left]
    exact length_take_toNat_le _ _

/-- The loop of `walk_ies` as it is left: what it collected, where, and the flag it
returns. -/
structure Walk where
  out : List Element
  i : ℕ
  ok : Bool

/-- The loop of `walk_ies`. -/
def walkIesFrom (ies : Octets) (out : List Element) (i : ℕ) : Walk :=
  if room : i + 2 ≤ ies.length then
    if ies.length < i + 2 + ies[i + 1].toNat then ⟨out, i, false⟩
    else walkIesFrom ies (out ++ [elementAt ies i room]) (i + 2 + ies[i + 1].toNat)
  else ⟨out, i, i = ies.length⟩
termination_by ies.length - i

/-- `walk_ies` -/
def walkIes (ies : Octets) : List Element × Bool :=
  let walk := walkIesFrom ies [] 0
  (walk.out, walk.ok)

/-- The complete element some octets start with. -/
def headElement : Octets → Option Element
  | eid :: ln :: behind =>
      if ln.toNat ≤ behind.length then
        some ⟨eid, behind.take ln.toNat, length_take_toNat_le behind ln⟩
      else none
  | _ => none

theorem headElement_encode (element : Element) (rest : Octets) :
    headElement (element.encode ++ rest) = some element := by
  have size := element.toNat_length
  have whole : (UInt8.ofNat element.payload.length).toNat ≤ (element.payload ++ rest).length := by
    rw [size, List.length_append]
    omega
  have read : headElement (element.encode ++ rest) =
      headElement
        (element.eid :: UInt8.ofNat element.payload.length :: (element.payload ++ rest)) :=
    rfl
  rw [read, headElement, if_pos whole]
  exact congrArg some (Element.ext rfl (List.take_left' size.symm))

theorem encode_of_headElement {octets : Octets} {element : Element}
    (read : headElement octets = some element) : element.encode <+: octets := by
  cases octets with
  | nil => cases read
  | cons eid behind =>
      cases behind with
      | nil => cases read
      | cons ln behind =>
          rw [headElement] at read
          split at read
          case isFalse => cases read
          case isTrue inside =>
              cases read
              rw [Element.encode, List.length_take, Nat.min_eq_left inside, UInt8.ofNat_toNat]
              exact List.cons_prefix_cons.mpr ⟨rfl, List.cons_prefix_cons.mpr
                ⟨rfl, ⟨_, List.take_append_drop _ _⟩⟩⟩

/-- Information elements end by themselves. -/
def elements : Foundation.Framing UInt8 Element where
  encode := Element.encode
  head := headElement
  encode_ne_nil _ := List.cons_ne_nil _ _
  head_encode := headElement_encode
  encode_of_head := encode_of_headElement

theorem drop_eq_cons_cons {ies : Octets} {i : ℕ} (room : i + 2 ≤ ies.length) :
    ies.drop i = ies[i] :: ies[i + 1] :: ies.drop (i + 2) := by
  rw [List.drop_eq_getElem_cons (by omega), List.drop_eq_getElem_cons (by omega)]

/-- There is no element at an offset without room for its two octets. -/
theorem headElement_drop_of_short {ies : Octets} {i : ℕ} (short : ¬ i + 2 ≤ ies.length) :
    headElement (ies.drop i) = none := by
  have size : (ies.drop i).length < 2 := by
    rw [List.length_drop]
    omega
  generalize ies.drop i = octets at size
  cases octets with
  | nil => rfl
  | cons _ behind =>
      cases behind with
      | nil => rfl
      | cons _ _ =>
          simp only [List.length_cons] at size
          omega

/-- Else it is the one its two octets announce, when that is there. -/
theorem headElement_drop {ies : Octets} {i : ℕ} (room : i + 2 ≤ ies.length) :
    headElement (ies.drop i) =
      if ies.length < i + 2 + ies[i + 1].toNat then none else some (elementAt ies i room) := by
  rw [drop_eq_cons_cons room, headElement, List.length_drop]
  by_cases cut : ies.length < i + 2 + ies[i + 1].toNat
  · rw [if_pos cut, if_neg (by omega)]
  · rw [if_neg cut, if_pos (by omega)]
    refine congrArg some (Element.ext rfl ?_)
    simp only [elementAt, slice, Nat.add_sub_cancel_left]

theorem length_elementAt {ies : Octets} {i : ℕ} (room : i + 2 ≤ ies.length)
    (fits : ¬ ies.length < i + 2 + ies[i + 1].toNat) :
    (elementAt ies i room).encode.length = 2 + ies[i + 1].toNat := by
  simp only [Element.length_encode, elementAt, slice, List.length_take, List.length_drop]
  omega

/-- The element an offset is at takes up its two octets and as many as the second
of them says. -/
theorem drop_elementAt {ies : Octets} {i : ℕ} (room : i + 2 ≤ ies.length)
    (fits : ¬ ies.length < i + 2 + ies[i + 1].toNat) :
    ies.drop i = (elementAt ies i room).encode ++ ies.drop (i + 2 + ies[i + 1].toNat) := by
  have read : headElement (ies.drop i) = some (elementAt ies i room) := by
    rw [headElement_drop room, if_neg fits]
  obtain ⟨behind, joined⟩ := encode_of_headElement read
  have tail : behind = ies.drop (i + 2 + ies[i + 1].toNat) := by
    rw [Nat.add_assoc, ← length_elementAt room fits, ← List.drop_drop, ← joined, List.drop_left]
  rw [← tail, joined]

/-- A walk that has collected the elements in front of an offset collects those
behind it too, and says whether they are all there is. -/
theorem walkIesFrom_parses {ies : Octets} {out : List Element} {i : ℕ} (inside : i ≤ ies.length)
    (whole : ies = elements.encodeAll out ++ ies.drop i) :
    elements.Parses ies (walkIesFrom ies out i).out (ies.drop (walkIesFrom ies out i).i) ∧
      (walkIesFrom ies out i).i ≤ ies.length ∧
      ((walkIesFrom ies out i).ok = true ↔ (walkIesFrom ies out i).i = ies.length) := by
  fun_induction walkIesFrom ies out i with
  | case1 out i room cut =>
      have stuck : headElement (ies.drop i) = none := by
        rw [headElement_drop room, if_pos cut]
      refine ⟨⟨whole, stuck⟩, inside, ?_⟩
      simp only [Bool.false_eq_true, false_iff]
      omega
  | case2 out i room fits ih =>
      refine ih (by omega) ?_
      rw [Foundation.Framing.encodeAll_append, Foundation.Framing.encodeAll_cons,
        Foundation.Framing.encodeAll_nil, List.append_nil, List.append_assoc]
      exact whole.trans (congrArg _ (drop_elementAt room fits))
  | case3 out i short =>
      exact ⟨⟨whole, headElement_drop_of_short short⟩, inside, decide_eq_true_iff⟩

theorem walkIes_parses (ies : Octets) :
    elements.Parses ies (walkIes ies).1 (ies.drop (walkIesFrom ies [] 0).i) ∧
      (walkIesFrom ies [] 0).i ≤ ies.length ∧
      ((walkIes ies).2 = true ↔ (walkIesFrom ies [] 0).i = ies.length) :=
  @walkIesFrom_parses ies [] 0 (Nat.zero_le _) rfl

/-- The walk reads the elements in front. -/
theorem walkIes_fst (ies : Octets) : (walkIes ies).1 = elements.items ies :=
  (walkIes_parses ies).1.items_eq.symm

/-- It is left where the rest of the octets starts. -/
theorem drop_walkIesFrom (ies : Octets) : ies.drop (walkIesFrom ies [] 0).i = elements.rest ies :=
  (walkIes_parses ies).1.rest_eq.symm

/-- The flag says whether there is no rest. -/
theorem walkIes_snd (ies : Octets) : (walkIes ies).2 = true ↔ elements.rest ies = [] := by
  obtain ⟨-, inside, flag⟩ := walkIes_parses ies
  rw [← drop_walkIesFrom, List.drop_eq_nil_iff]
  exact flag.trans ⟨Nat.le_of_eq ∘ Eq.symm, fun beyond => Nat.le_antisymm inside beyond⟩

/-- It is left behind the elements it read. -/
theorem walkIes_i (ies : Octets) :
    (walkIesFrom ies [] 0).i = (elements.encodeAll (walkIes ies).1).length := by
  obtain ⟨parses, inside, -⟩ := walkIes_parses ies
  have size := congrArg List.length parses.whole
  rw [List.length_append, List.length_drop] at size
  omega

/-- What the walk reads back of encoded elements, and what the elements it reads of
any octets encode. -/
theorem walkIes_roundTrip :
    (∀ chain : List Element, walkIes (elements.encodeAll chain) = (chain, true)) ∧
      ∀ ies : Octets,
        (walkIesFrom ies [] 0).i = (elements.encodeAll (walkIes ies).1).length ∧
        elements.encodeAll (walkIes ies).1 <+: ies ∧
        ((walkIes ies).2 = true ↔ elements.encodeAll (walkIes ies).1 = ies) := by
  constructor
  · intro chain
    have parses : elements.Parses _ chain [] := .encoded chain
    refine Prod.ext ?_ ?_
    · rw [walkIes_fst, parses.items_eq]
    · exact (walkIes_snd _).mpr parses.rest_eq
  · intro ies
    rw [walkIes_i, walkIes_snd, walkIes_fst, Foundation.Framing.rest_eq_nil_iff]
    exact ⟨rfl, ⟨_, Foundation.Framing.encodeAll_items_append ies⟩, Iff.rfl⟩

end Rimba.Capture
