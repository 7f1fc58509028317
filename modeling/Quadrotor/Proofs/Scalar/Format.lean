import Mathlib
import Quadrotor.Scalar

/-!
# The unpacked form of a scalar

A scalar is a word of 32 bits; its unpacked form tells the sign, the significand and the exponent
apart. Arithmetic unpacks its operands, computes on the forms and packs the result again, so a fact
about arithmetic is a fact about forms, plus one about what packing does to a form. That last one is
the content of this module: a canonical form survives packing unless its exponent is too large, and
then it becomes an infinity.
-/

namespace Quadrotor.Scalar

open Float.Model (Format UnpackedFloat)
open Float.Model.UnpackedFloat

/-- Sign, significand and exponent of a scalar, or which special value it is. -/
def form (x : Scalar) : UnpackedFloat := x.toModel.unpack

/-- What a form has become once it has been packed and unpacked again. -/
def repack (u : UnpackedFloat) : UnpackedFloat := unpack .binary32 (pack .binary32 u)

/-- The significand has 24 digits, or fewer only at the least exponent. -/
def Canonical (m : Nat) (e : Int) : Prop := m < 2 ^ 24 ∧ -149 ≤ e ∧ (2 ^ 23 ≤ m ∨ e = -149)

/-- The forms that scalars have. -/
def IsForm : UnpackedFloat → Prop
  | .finite _ m e _ => Canonical m e ∧ e ≤ 104
  | .infinity _ | .zero _ | .notANumber => True

/-! ## Unpacking the fields of a word -/

/-- The digit that a word leaves out, put in front of the digits it holds. -/
theorem hidden_append (m : BitVec 23) : (1#1 ++ m).toNat = 2 ^ 23 + m.toNat := by
  rw [BitVec.toNat_append, ← Nat.shiftLeft_add_eq_or_of_lt m.isLt]
  rfl

theorem bias_eq :
    (Format.binary32.exponentBias : Int) + Format.binary32.mantissaBitsWithoutImplicit = 150 := rfl

theorem unpack_fields (s : Sign) (e : BitVec 8) (m : BitVec 23) :
    unpack .binary32 (packComponents .binary32 s e m) =
      if e = -1#8 then if m = 0#23 then .infinity s else .notANumber
      else if e = 0#8 then
        if h : m = 0#23 then .zero s
        else .finite s m.toNat (-149) (by simpa [BitVec.toNat_pos, BitVec.pos_iff_ne_zero])
      else .finite s (2 ^ 23 + m.toNat) (e.toNat - 150) (by omega) := by
  have hb := bias_eq
  rw [unpack]
  simp only [unpackMantissa_packComponents, unpackExponent_packComponents, unpackSign_packComponents,
    Sign.ofBitVec_toBitVec, hb, hidden_append]
  by_cases he : e = 0#8
  · subst he; rfl
  · simp only [he, if_false]

/-! ## Packing and unpacking again -/

@[simp] theorem repack_zero (s : Sign) : repack (.zero s) = .zero s := by
  cases s <;> rfl

@[simp] theorem repack_infinity (s : Sign) : repack (.infinity s) = .infinity s := by
  cases s <;> rfl

/-- A canonical form survives, and with an exponent that is too large it becomes an infinity. -/
theorem repack_finite {m : Nat} {e : Int} (hc : Canonical m e) (s : Sign) (hm : 0 < m) :
    repack (.finite s m e hm) = if e ≤ 104 then .finite s m e hm else .infinity s := by
  obtain ⟨hlt, hge, hnorm⟩ := hc
  have hb : (e + Format.binary32.exponentBias + Format.binary32.mantissaBitsWithoutImplicit).toNat
      = (e + 150).toNat := by
    rw [add_assoc, bias_eq]
  -- The packed word holds the exponent only for a significand of full length.
  have hlog : m.log2 + 1 = Format.binary32.mantissaBits ↔ 2 ^ 23 ≤ m := by
    rw [← Nat.le_log2 hm.ne']
    have := (Nat.log2_lt hm.ne').mpr hlt
    change m.log2 + 1 = 24 ↔ _
    omega
  have hcap : 2 ^ Format.binary32.exponentBits = 256 := rfl
  unfold repack UnpackedFloat.pack
  simp only [hb, hlog, hcap]
  by_cases hover : e ≤ 104
  · rw [if_neg (by omega), if_pos hover]
    by_cases hn : 2 ^ 23 ≤ m
    · have he : (BitVec.ofNat 8 (e + 150).toNat).toNat = (e + 150).toNat := by
        rw [BitVec.toNat_ofNat, Nat.mod_eq_of_lt (by omega)]
      have hm' : (BitVec.ofNat 23 m).toNat = m - 2 ^ 23 := by
        rw [BitVec.toNat_ofNat]; omega
      have he1 : BitVec.ofNat 8 (e + 150).toNat ≠ -1#8 := by
        intro h
        have h255 : _ = (-1#8).toNat := congrArg BitVec.toNat h
        rw [he] at h255
        change _ = 255 at h255
        omega
      have he0 : BitVec.ofNat 8 (e + 150).toNat ≠ 0#8 := by
        intro h
        have hz : _ = (0#8).toNat := congrArg BitVec.toNat h
        rw [he] at hz
        change _ = 0 at hz
        omega
      rw [if_pos hn, unpack_fields, if_neg he1, if_neg he0]
      congr 1
      · rw [hm']; omega
      · rw [he]; omega
    · have hm' : (BitVec.ofNat 23 m).toNat = m := by
        rw [BitVec.toNat_ofNat]; omega
      have hm0 : BitVec.ofNat 23 m ≠ 0#23 := by
        intro h
        have hz : _ = (0#23).toNat := congrArg BitVec.toNat h
        rw [hm'] at hz
        change _ = 0 at hz
        omega
      rw [if_neg hn, unpack_fields, if_neg (by decide), if_pos rfl, dif_neg hm0]
      congr 1
      exact (hnorm.resolve_left hn).symm
  · rw [if_pos (by omega), if_neg hover, packedInfinity, unpack_fields, if_pos rfl]
    rfl

theorem repack_isForm {u : UnpackedFloat} (hu : IsForm u) : repack u = u := by
  cases u with
  | finite s m e hm => rw [repack_finite hu.1, if_pos hu.2]
  | infinity s => exact repack_infinity s
  | zero s => exact repack_zero s
  | notANumber => rfl

/-! ## The forms of scalars -/

theorem form_isForm (x : Scalar) : IsForm x.form := by
  cases h : x.form with
  | infinity _ | zero _ | notANumber => trivial
  | finite s m e hm =>
    have hb := bias_eq
    unfold form Float32.Model.unpack unpack at h
    generalize x.toModel.toBits.toBitVec = b at h
    have hv : (@unpackMantissa .binary32 b).toNat < 2 ^ 23 := BitVec.isLt _
    have hw : (@unpackExponent .binary32 b).toNat < 2 ^ 8 := BitVec.isLt _
    simp only [hb, hidden_append] at h
    split_ifs at h with hmax _ hmin _
    all_goals cases h
    · exact ⟨⟨by omega, by rw [hmin]; decide, Or.inr (by rw [hmin]; rfl)⟩, by rw [hmin]; decide⟩
    · have hw1 : (@unpackExponent .binary32 b).toNat ≠ 255 := fun e => hmax (BitVec.eq_of_toNat_eq e)
      have hw0 : (@unpackExponent .binary32 b).toNat ≠ 0 := fun e => hmin (BitVec.eq_of_toNat_eq e)
      exact ⟨⟨by omega, by omega, Or.inl (by omega)⟩, by omega⟩

theorem form_add (x y : Scalar) : (x + y).form = repack (UnpackedFloat.add .binary32 x.form y.form) :=
  rfl

theorem form_sub (x y : Scalar) : (x - y).form = repack (UnpackedFloat.sub .binary32 x.form y.form) :=
  rfl

theorem neg_isForm {u : UnpackedFloat} (hu : IsForm u) : IsForm u.neg := by
  cases u <;> exact hu

theorem abs_isForm {u : UnpackedFloat} (hu : IsForm u) : IsForm u.abs := by
  cases u <;> exact hu

theorem form_neg (x : Scalar) : (-x).form = x.form.neg :=
  repack_isForm (neg_isForm (form_isForm x))

theorem form_abs (x : Scalar) : form x.abs = x.form.abs :=
  repack_isForm (abs_isForm (form_isForm x))

end Quadrotor.Scalar
