import Mathlib

/-! # The order of double precision floats

A float that is a number has a place among all floats, an integer, and the comparisons
of floats compare their places (`Foundation.lt_iff_place`, `Foundation.le_iff_place`). The
sign turns the place over (`Foundation.place_neg`, `Foundation.place_abs`). A float that is no
number has none, and is neither below nor above another.
-/

namespace Foundation

open Float.Model (UnpackedFloat)
open Float.Model.UnpackedFloat (Sign packComponents unpackExponent unpackMantissa)

/-- The double precision format. -/
abbrev double : Float.Model.Format := Float.Model.Format.binary64

/-- `float("inf")` -/
def infinity : Float := .ofModel (.pack (.infinity .positive))

/-- `float("nan")` -/
def nan : Float := .ofModel (.pack .notANumber)

/-- An integer, not rounded. -/
def exactly (n : ℤ) : UnpackedFloat :=
  if zero : n = 0 then .zero .positive
  else .finite (if n < 0 then .negative else .positive) n.natAbs 0 (Int.natAbs_pos.mpr zero)

/-- The float nearest to a fraction, infinite when the fraction is too large. -/
def nearest (num den : ℤ) : Float :=
  .ofModel (.pack (UnpackedFloat.div double (exactly num) (exactly den)))

/-- An unpacked float that double precision holds as it is. -/
def Held : UnpackedFloat → Prop
  | .finite _ mantissa exponent _ =>
      exponent = -1074 ∧ mantissa < 0x10000000000000 ∨
        -1074 ≤ exponent ∧ exponent ≤ 971 ∧
          0x10000000000000 ≤ mantissa ∧ mantissa < 0x20000000000000
  | _ => True

theorem toNat_implicit (mantissa : BitVec 52) :
    (1#1 ++ mantissa).toNat = 0x10000000000000 + mantissa.toNat := by
  rw [BitVec.toNat_append, ← Nat.shiftLeft_add_eq_or_of_lt mantissa.isLt]
  rfl

/-- What is unpacked is held. -/
theorem held_unpack (bits : BitVec 64) : Held (UnpackedFloat.unpack double bits) := by
  have mantissaBound : (@unpackMantissa double bits).toNat < 0x10000000000000 :=
    BitVec.isLt _
  have exponentBound : (@unpackExponent double bits).toNat < 2048 := BitVec.isLt _
  unfold UnpackedFloat.unpack
  simp only
  split_ifs with special zero denormal none
  · trivial
  · trivial
  · trivial
  · left
    rw [denormal]
    exact ⟨rfl, mantissaBound⟩
  · right
    rw [toNat_implicit]
    have positive : (@unpackExponent double bits).toNat ≠ 0 := fun zero =>
      denormal (BitVec.eq_of_toNat_eq zero)
    have bounded : (@unpackExponent double bits).toNat ≠ 2047 := fun top =>
      special (BitVec.eq_of_toNat_eq top)
    have bias : (double.exponentBias : ℤ) + double.mantissaBitsWithoutImplicit = 1075 := rfl
    rw [bias]
    refine ⟨?_, ?_, ?_, ?_⟩ <;> omega

/-- Packed components are unpacked as the same components. -/
theorem unpack_packComponents (sign : Sign) (exponent : BitVec 11) (mantissa : BitVec 52) :
    UnpackedFloat.unpack double (packComponents double sign exponent mantissa) =
      if exponent = -1#_ then if mantissa = 0#_ then .infinity sign else .notANumber
      else if exponent = 0#_ then
        if nonzero : mantissa = 0#_ then .zero sign
        else .finite sign mantissa.toNat (-1074)
          (by simpa [BitVec.toNat_pos, BitVec.pos_iff_ne_zero])
      else .finite sign (1#1 ++ mantissa).toNat ((exponent.toNat : ℤ) - 1075)
        (by rw [toNat_implicit]; omega) := by
  unfold UnpackedFloat.unpack
  simp only [UnpackedFloat.unpackMantissa_packComponents,
    UnpackedFloat.unpackExponent_packComponents, UnpackedFloat.unpackSign_packComponents,
    Sign.ofBitVec_toBitVec]
  split_ifs with special zero denormal none
  · rfl
  · rfl
  · rfl
  · simp only [denormal]
    rfl
  · rfl

theorem unpack_pack_subnormal (sign : Sign) {mantissa : ℕ} (positive : 0 < mantissa)
    (small : mantissa < 0x10000000000000) :
    UnpackedFloat.unpack double
        (UnpackedFloat.pack double (.finite sign mantissa (-1074) positive)) =
      .finite sign mantissa (-1074) positive := by
  have short : ¬ mantissa.log2 + 1 = 53 := by
    have bits : mantissa.log2 < 52 := (Nat.log2_lt positive.ne').mpr small
    omega
  have kept : (BitVec.ofNat 52 mantissa).toNat = mantissa := Nat.mod_eq_of_lt small
  have nonzero : ¬ BitVec.ofNat 52 mantissa = 0#52 := by
    intro zero
    rw [zero] at kept
    exact positive.ne kept
  have packed : UnpackedFloat.pack double (.finite sign mantissa (-1074) positive) =
      packComponents double sign 0#11 (BitVec.ofNat 52 mantissa) := if_neg short
  rw [packed, unpack_packComponents, if_neg (by decide), if_pos rfl, dif_neg nonzero]
  simp only [kept]

theorem unpack_pack_normal (sign : Sign) {mantissa : ℕ} {exponent : ℤ} (positive : 0 < mantissa)
    (low : -1074 ≤ exponent) (high : exponent ≤ 971) (implicit : 0x10000000000000 ≤ mantissa)
    (small : mantissa < 0x20000000000000) :
    UnpackedFloat.unpack double
        (UnpackedFloat.pack double (.finite sign mantissa exponent positive)) =
      .finite sign mantissa exponent positive := by
  have long : mantissa.log2 + 1 = 53 := by
    have bits : mantissa.log2 = 52 := (Nat.log2_eq_iff positive.ne').mpr ⟨implicit, small⟩
    rw [bits]
  have kept : (1#1 ++ BitVec.ofNat 52 mantissa).toNat = mantissa := by
    rw [toNat_implicit, BitVec.toNat_ofNat]
    omega
  have biased : (exponent + 1075).toNat < 2047 ∧ 0 < (exponent + 1075).toNat := by
    omega
  have back : (BitVec.ofNat 11 (exponent + 1075).toNat).toNat = (exponent + 1075).toNat :=
    Nat.mod_eq_of_lt (biased.1.trans (by decide))
  have packed : UnpackedFloat.pack double (.finite sign mantissa exponent positive) =
      packComponents double sign (BitVec.ofNat 11 (exponent + 1075).toNat)
        (BitVec.ofNat 52 mantissa) := by
    have sum : exponent + double.exponentBias + double.mantissaBitsWithoutImplicit =
        exponent + 1075 := Int.add_assoc exponent 1023 52
    have fits : ¬ 2 ^ double.exponentBits ≤ (exponent + 1075).toNat + 1 :=
      not_le.mpr (Nat.succ_lt_succ biased.1)
    rw [UnpackedFloat.pack, sum, if_neg fits]
    exact if_pos long
  have finite : ¬ BitVec.ofNat 11 (exponent + 1075).toNat = -1#11 := by
    intro top
    rw [top] at back
    exact biased.1.ne back.symm
  have normal : ¬ BitVec.ofNat 11 (exponent + 1075).toNat = 0#11 := by
    intro zero
    rw [zero] at back
    exact biased.2.ne back
  have shifted : ((exponent + 1075).toNat : ℤ) - 1075 = exponent := by
    omega
  rw [packed, unpack_packComponents, if_neg finite, if_neg normal]
  simp only [kept, back, shifted]

/-- What is held is unpacked as it was packed. -/
theorem unpack_pack {value : UnpackedFloat} (held : Held value) :
    UnpackedFloat.unpack double (UnpackedFloat.pack double value) = value := by
  cases value with
  | notANumber => rfl
  | infinity sign => cases sign <;> rfl
  | zero sign => cases sign <;> rfl
  | finite sign mantissa exponent positive =>
      rcases held with ⟨rfl, small⟩ | ⟨low, high, implicit, small⟩
      · exact unpack_pack_subnormal sign positive small
      · exact unpack_pack_normal sign positive low high implicit small

/-- The magnitude of a finite float, counted in floats. -/
def magnitude (mantissa : ℕ) (exponent : ℤ) : ℤ :=
  (exponent + 1075) * 0x20000000000000 + mantissa

/-- The place of an unpacked float among all that are numbers. -/
def placeOf : UnpackedFloat → Option ℤ
  | .notANumber => none
  | .infinity sign => some (sign.apply 0x10000000000000000)
  | .zero _ => some 0
  | .finite sign mantissa exponent _ => some (sign.apply (magnitude mantissa exponent))

theorem magnitude_held {sign : Sign} {mantissa : ℕ} {exponent : ℤ} {positive : 0 < mantissa}
    (held : Held (.finite sign mantissa exponent positive)) :
    mantissa < 0x20000000000000 ∧ 0 < magnitude mantissa exponent ∧
      magnitude mantissa exponent < 0x10000000000000000 := by
  rw [magnitude]
  rcases held with ⟨rfl, small⟩ | ⟨low, high, implicit, small⟩
  · refine ⟨?_, ?_, ?_⟩ <;> omega
  · refine ⟨?_, ?_, ?_⟩ <;> omega

/-- Magnitudes compare by the exponent first. -/
theorem compare_magnitude {mantissa mantissa' : ℕ} {exponent exponent' : ℤ}
    (small : mantissa < 0x20000000000000) (small' : mantissa' < 0x20000000000000) :
    (compare exponent exponent').then (compare mantissa mantissa') =
      compare (magnitude mantissa exponent) (magnitude mantissa' exponent') := by
  unfold magnitude
  rcases lt_trichotomy exponent exponent' with less | rfl | more
  · rw [compare_lt_iff_lt.mpr less]
    exact (compare_lt_iff_lt.mpr (by omega)).symm
  · rw [compare_eq_iff_eq.mpr rfl]
    rcases lt_trichotomy mantissa mantissa' with less | rfl | more
    · rw [compare_lt_iff_lt.mpr less]
      exact (compare_lt_iff_lt.mpr (by omega)).symm
    · rw [compare_eq_iff_eq.mpr rfl, compare_eq_iff_eq.mpr rfl]
      rfl
    · rw [compare_gt_iff_gt.mpr more]
      exact (compare_gt_iff_gt.mpr (by omega)).symm
  · rw [compare_gt_iff_gt.mpr more]
    exact (compare_gt_iff_gt.mpr (by omega)).symm

theorem compare_neg_neg (place place' : ℤ) :
    compare (-place) (-place') = (compare place place').swap := by
  rcases lt_trichotomy place place' with less | rfl | more
  · rw [compare_lt_iff_lt.mpr less, compare_gt_iff_gt.mpr (neg_lt_neg less)]
    rfl
  · rw [compare_eq_iff_eq.mpr rfl, compare_eq_iff_eq.mpr rfl]
    rfl
  · rw [compare_gt_iff_gt.mpr more, compare_lt_iff_lt.mpr (neg_lt_neg more)]
    rfl

/-- Floats that are numbers compare as their places. -/
theorem compare_placeOf {value other : UnpackedFloat} (held : Held value) (held' : Held other) :
    value.compare other = (placeOf value).bind fun place => (placeOf other).map fun place' =>
      compare place place' := by
  have below {place place' : ℤ} (less : place < place') :
      some .lt = some (compare place place') := by rw [compare_lt_iff_lt.mpr less]
  have above {place place' : ℤ} (more : place' < place) :
      some .gt = some (compare place place') := by rw [compare_gt_iff_gt.mpr more]
  have crossed {place place' : ℤ} (positive : 0 < place) (positive' : 0 < place') :
      -place < place' := by omega
  cases value with
  | notANumber => cases other <;> rfl
  | infinity sign =>
      cases other with
      | notANumber => cases sign <;> rfl
      | infinity sign' => cases sign <;> cases sign' <;> rfl
      | zero sign' => cases sign <;> rfl
      | finite sign' mantissa exponent positive =>
          obtain ⟨-, low, high⟩ := magnitude_held held'
          cases sign <;> cases sign'
          · exact below (neg_lt_neg high)
          · exact below (crossed (low.trans high) low)
          · exact above (crossed low (low.trans high))
          · exact above high
  | zero sign =>
      cases other with
      | notANumber => rfl
      | infinity sign' => cases sign' <;> rfl
      | zero sign' => rfl
      | finite sign' mantissa exponent positive =>
          obtain ⟨-, low, high⟩ := magnitude_held held'
          cases sign'
          · exact above (neg_neg_of_pos low)
          · exact below low
  | finite sign mantissa exponent positive =>
      obtain ⟨small, low, high⟩ := magnitude_held held
      cases other with
      | notANumber => cases sign <;> rfl
      | infinity sign' =>
          cases sign <;> cases sign'
          · exact above (neg_lt_neg high)
          · exact below (crossed low (low.trans high))
          · exact above (crossed (low.trans high) low)
          · exact below high
      | zero sign' =>
          cases sign
          · exact below (neg_neg_of_pos low)
          · exact above low
      | finite sign' mantissa' exponent' positive' =>
          obtain ⟨small', low', high'⟩ := magnitude_held held'
          have order := @compare_magnitude _ _ exponent exponent' small small'
          cases sign <;> cases sign'
          · exact congrArg some ((congrArg Ordering.swap order).trans
              (compare_neg_neg _ _).symm)
          · exact below (crossed low low')
          · exact above (crossed low' low)
          · exact congrArg some order

/-- The place of a float among the numbers; that of an infinite one is 2⁶⁴ or -2⁶⁴. -/
def place (x : Float) : Option ℤ := placeOf x.toModel.unpack

theorem compare_place (x y : Float) :
    x.toModel.unpack.compare y.toModel.unpack =
      (place x).bind fun p => (place y).map fun q => compare p q :=
  compare_placeOf (held_unpack _) (held_unpack _)

theorem lt_iff_place {x y : Float} : x < y ↔ ∃ p ∈ place x, ∃ q ∈ place y, p < q := by
  have compared : x < y ↔ (x.toModel.unpack.compare y.toModel.unpack == some .lt) = true :=
    decide_eq_true_iff
  rw [compared, beq_iff_eq, compare_place]
  simp only [Option.bind_eq_some_iff, Option.map_eq_some_iff, compare_lt_iff_lt, Option.mem_def]

theorem le_iff_place {x y : Float} : x ≤ y ↔ ∃ p ∈ place x, ∃ q ∈ place y, p ≤ q := by
  have compared : x ≤ y ↔
      ((x.toModel.unpack.compare y.toModel.unpack).any fun order => order.isLE) = true :=
    decide_eq_true_iff
  rw [compared, compare_place, Option.any_eq_true]
  simp only [Option.bind_eq_some_iff, Option.map_eq_some_iff, Option.mem_def]
  constructor
  · rintro ⟨order, ⟨p, placed, q, placed', rfl⟩, le⟩
    exact ⟨p, placed, q, placed', Int.isLE_compare.mp le⟩
  · rintro ⟨p, placed, q, placed', le⟩
    exact ⟨_, ⟨p, placed, q, placed', rfl⟩, Int.isLE_compare.mpr le⟩

theorem lt_iff_of_place {x y : Float} {p q : ℤ} (placed : place x = some p)
    (placed' : place y = some q) : x < y ↔ p < q := by
  rw [lt_iff_place, placed, placed']
  simp only [Option.mem_def, Option.some.injEq, exists_eq_left']

theorem le_iff_of_place {x y : Float} {p q : ℤ} (placed : place x = some p)
    (placed' : place y = some q) : x ≤ y ↔ p ≤ q := by
  rw [le_iff_place, placed, placed']
  simp only [Option.mem_def, Option.some.injEq, exists_eq_left']

theorem beq_iff_place {x y : Float} : (x == y) = true ↔ ∃ p ∈ place x, place y = some p := by
  have compared : (x == y) = true ↔
      (x.toModel.unpack.compare y.toModel.unpack == some .eq) = true := Iff.rfl
  rw [compared, beq_iff_eq, compare_place]
  simp only [Option.bind_eq_some_iff, Option.map_eq_some_iff, compare_eq_iff_eq, Option.mem_def]
  constructor
  · rintro ⟨p, placed, q, placed', rfl⟩
    exact ⟨p, placed, placed'⟩
  · rintro ⟨p, placed, placed'⟩
    exact ⟨p, placed, p, placed', rfl⟩

theorem isNaN_iff_place {x : Float} : x.isNaN = true ↔ place x = none := by
  have unpacked : x.isNaN = x.toModel.unpack.isNaN := rfl
  rw [unpacked, place]
  cases x.toModel.unpack with
  | notANumber => exact iff_of_true rfl rfl
  | infinity | zero | finite => exact iff_of_false Bool.false_ne_true (Option.some_ne_none _)

/-- A float that is a number has a place. -/
theorem exists_place {x : Float} (number : x.isNaN = false) : ∃ p, place x = some p := by
  refine Option.ne_none_iff_exists'.mp fun nowhere => ?_
  exact Bool.false_ne_true (number.symm.trans (isNaN_iff_place.mpr nowhere))

theorem place_infinity : place infinity = some 0x10000000000000000 := rfl

/-- A float made from another by its sign alone is packed as it is. -/
theorem unpack_repack {f : UnpackedFloat → UnpackedFloat}
    (keeps : ∀ value, Held value → Held (f value)) (x : Float.Model) :
    (Float.Model.pack (f x.unpack)).unpack = f x.unpack :=
  unpack_pack (keeps _ (held_unpack _))

theorem place_neg (x : Float) : place (-x) = (place x).map fun p => -p := by
  have keeps : ∀ value : UnpackedFloat, Held value → Held value.neg := by
    intro value held
    cases value with
    | notANumber | infinity | zero => trivial
    | finite => exact held
  have unpacked : (-x).toModel.unpack = x.toModel.unpack.neg := unpack_repack keeps x.toModel
  rw [place, place, unpacked]
  cases x.toModel.unpack with
  | notANumber => rfl
  | zero sign => rfl
  | infinity sign => cases sign <;> rfl
  | finite sign mantissa exponent positive =>
      cases sign
      · exact congrArg some (neg_neg _).symm
      · rfl

theorem place_abs (x : Float) : place x.abs = (place x).map fun p => |p| := by
  have keeps : ∀ value : UnpackedFloat, Held value → Held value.abs := by
    intro value held
    cases value with
    | notANumber | infinity | zero => trivial
    | finite => exact held
  have unpacked : x.abs.toModel.unpack = x.toModel.unpack.abs := unpack_repack keeps x.toModel
  have held : Held x.toModel.unpack := held_unpack _
  rw [place, place, unpacked]
  cases value : x.toModel.unpack with
  | notANumber => rfl
  | zero sign => rfl
  | infinity sign => cases sign <;> rfl
  | finite sign mantissa exponent positive =>
      rw [value] at held
      obtain ⟨-, low, -⟩ := magnitude_held held
      cases sign
      · exact congrArg some ((abs_neg _).trans (abs_of_pos low)).symm
      · exact congrArg some (abs_of_pos low).symm

theorem place_abs_of_place {x : Float} {p : ℤ} (placed : place x = some p) :
    place x.abs = some |p| := by
  rw [place_abs, placed, Option.map_some]

theorem abs_place_le {x : Float} {p : ℤ} (placed : place x = some p) :
    |p| ≤ 0x10000000000000000 := by
  have held : Held x.toModel.unpack := held_unpack _
  rw [place] at placed
  cases value : x.toModel.unpack with
  | notANumber =>
      rw [value] at placed
      cases placed
  | zero sign =>
      rw [value] at placed
      cases placed
      decide
  | infinity sign =>
      rw [value] at placed
      cases placed
      cases sign <;> decide
  | finite sign mantissa exponent positive =>
      rw [value] at placed held
      obtain ⟨-, low, high⟩ := magnitude_held held
      cases placed
      cases sign
      · exact ((abs_neg _).trans (abs_of_pos low)).trans_le high.le
      · exact (abs_of_pos low).trans_le high.le

end Foundation
