import Mathlib
import SmlSynth.Gen.Draw

/-!
# Two facts on doubles

The depth gate compares a roll with a probability, both of them doubles. What it decides at depth
zero rests on two facts on all doubles of a kind, which follow from how doubles are rounded and
packed: a positive number of moderate size is rounded to one whose mantissa has all of its 53 bits,
and packing keeps such a number as it is.

* `Full`, `round_full`: full mantissas, and what a positive number is rounded to.
* `unpack_components`, `unpack_pack`: what bits stand for, and that packing keeps a full mantissa.
* `zero_div_toFloat`: zero over a count above zero is zero.
* `unitOfWord_lt_one`: a double of the half-open unit interval is below one, whatever the word.
-/

namespace SmlSynth.Double

open Float.Model Float.Model.UnpackedFloat

variable {s : Sign} {m : Nat} {e : Int}

/-! ## Full mantissas -/

/-- **A full mantissa**: one with all of its 53 bits. -/
def Full (m : Nat) : Prop := 2 ^ 52 ≤ m ∧ m < 2 ^ 53

theorem Full.pos (h : Full m) : 0 < m := by
  have hlow := h.1
  omega

theorem Full.log2 (h : Full m) : m.log2 = 52 := (Nat.log2_eq_iff (Nat.ne_of_gt h.pos)).2 h

/-- The first 53 bits of a number that has as many are a full mantissa. -/
theorem full_div (hm : 52 ≤ m.log2) : Full (m / 2 ^ (m.log2 - 52)) := by
  have hne : m ≠ 0 := by
    rintro rfl
    simp at hm
  have hlow := Nat.log2_self_le hne
  have hhigh : m < 2 ^ (m.log2 + 1) := Nat.lt_log2_self
  have hpos : 0 < 2 ^ (m.log2 - 52) := Nat.two_pow_pos _
  constructor
  · have hexp : 52 + (m.log2 - 52) = m.log2 := by omega
    rw [Nat.le_div_iff_mul_le hpos, ← Nat.pow_add, hexp]
    exact hlow
  · have hexp : 53 + (m.log2 - 52) = m.log2 + 1 := by omega
    rw [Nat.div_lt_iff_lt_mul hpos, ← Nat.pow_add, hexp]
    exact hhigh

theorem log2_shiftLeft (hm : 0 < m) (k : Nat) : (m <<< k).log2 = m.log2 + k := by
  induction k with
  | zero => rfl
  | succ k ih =>
    have hpos : 0 < m <<< k := Nat.shiftLeft_pos_iff.2 hm
    rw [Nat.shiftLeft_succ, Nat.log2_two_mul (Nat.ne_of_gt hpos), ih]
    omega

/-! ## Rounding -/

theorem mantissa_shiftRight (em : ExtendedMantissa) (k : Nat) :
    (em >>> k).mantissa = em.mantissa / 2 ^ k := by
  induction k with
  | zero => exact (Nat.div_one _).symm
  | succ k ih =>
    have hstep : (em >>> (k + 1)).mantissa = (em >>> k).mantissa / 2 := rfl
    rw [hstep, ih, Nat.div_div_eq_div_mul, Nat.pow_succ]

/-- Rounding leaves a mantissa or goes to the next one. -/
theorem rounded_bounds (em : ExtendedMantissa) :
    em.mantissa ≤ em.roundedMantissa ∧ em.roundedMantissa ≤ em.mantissa + 1 := by
  have hparity := Nat.mod_lt em.mantissa Nat.two_pos
  unfold ExtendedMantissa.roundedMantissa
  rcases em.accuracy with _ | _ | _ | _ <;> simp only [Accuracy.roundToNearestEven] <;> omega

/-- The exponent at which a mantissa is full, if that is no less than the least exponent. -/
theorem targetExponent_eq (he : -1074 ≤ e + m.log2 - 52) :
    Format.binary64.targetExponent (totalExponent m e) = e + m.log2 - 52 := by
  have htarget : Format.binary64.targetExponent (totalExponent m e)
      = max ((m.log2 : Int) + 1 + e - 53) (-1074) := rfl
  rw [htarget]
  omega

/-- **A shift makes a mantissa full**, and leaves one that is full already. -/
theorem shift_full (hm : 52 ≤ m.log2) (he : -1074 ≤ e + m.log2 - 52) :
    ∃ em, shiftToTargetExponent .binary64 m e .exact = (em, e + m.log2 - 52) ∧ Full em.mantissa ∧
      (m.log2 = 52 → em.roundedMantissa = m) := by
  refine ⟨ExtendedMantissa.ofMantissaAndAccuracy m .exact >>> (m.log2 - 52), ?_, ?_, fun h52 => ?_⟩
  · have hamount : (e + m.log2 - 52 - e).toNat = m.log2 - 52 := by omega
    have hexp : e + ((m.log2 - 52 : Nat) : Int) = e + m.log2 - 52 := by omega
    unfold shiftToTargetExponent shiftToExponent
    rw [targetExponent_eq he]
    simp only [hamount, hexp]
  · rw [mantissa_shiftRight]
    exact full_div hm
  · rw [h52]
    rfl

/-- What comes of the two shifts of a rounding, before and after the mantissa is rounded. -/
theorem roundWithAccuracy_of_shifts {em em' : ExtendedMantissa} {e₁ e₂ : Int}
    (hfirst : shiftToTargetExponent .binary64 m e .exact = (em, e₁))
    (hsecond : shiftToTargetExponent .binary64 em.roundedMantissa e₁ .exact = (em', e₂))
    (h : 0 < em'.mantissa) :
    roundWithAccuracy .binary64 s m e .exact = .finite s em'.mantissa e₂ h := by
  have hresult : roundWithAccuracy .binary64 s m e .exact =
      let first := shiftToTargetExponent .binary64 m e .exact
      let second := shiftToTargetExponent .binary64 first.1.roundedMantissa first.2 .exact
      if h : second.1.mantissa = 0 then .zero s
      else .finite s second.1.mantissa second.2 (Nat.pos_of_ne_zero h) := rfl
  simp only [hresult, hfirst, hsecond]
  exact dif_neg (Nat.ne_of_gt h)

/-- A number of at least 53 bits is rounded to a full mantissa. It has the exponent that the length
of the number asks for, or the next one after a carry. -/
theorem roundWithAccuracy_full (hm : 52 ≤ m.log2) (he : -1074 ≤ e + m.log2 - 52) :
    ∃ m' e' h, roundWithAccuracy .binary64 s m e .exact = .finite s m' e' h ∧ Full m' ∧
      e + m.log2 - 52 ≤ e' ∧ e' ≤ e + m.log2 - 51 ∧ (m.log2 = 52 → e' = e) := by
  obtain ⟨em, hfirst, hfull, hsame⟩ := shift_full hm he
  -- rounding up may need one more bit
  obtain ⟨hlow, hhigh⟩ := rounded_bounds em
  have hne : em.roundedMantissa ≠ 0 := by
    have hpos := hfull.pos
    omega
  have hleast : 52 ≤ em.roundedMantissa.log2 := (Nat.le_log2 hne).2 (Nat.le_trans hfull.1 hlow)
  have hmost : em.roundedMantissa.log2 < 54 := by
    have hlt := hfull.2
    exact (Nat.log2_lt hne).2 (by omega)
  obtain ⟨em', hsecond, hfull', -⟩ :=
    shift_full (m := em.roundedMantissa) (e := e + m.log2 - 52) hleast (by omega)
  have hresult := roundWithAccuracy_of_shifts (s := s) hfirst hsecond hfull'.pos
  refine ⟨em'.mantissa, _, hfull'.pos, hresult, hfull', by omega, by omega, fun h52 => ?_⟩
  have hlog : em.roundedMantissa.log2 = 52 := by rw [hsame h52, h52]
  omega

/-- **A positive number is rounded to a full mantissa**, unless it is too small for one. With no more
than 53 bits it has the exponent that its length asks for. -/
theorem round_full (hm : 0 < m) (he : -1074 ≤ e + m.log2 - 52) :
    ∃ m' e' h, UnpackedFloat.round .binary64 s m e = .finite s m' e' h ∧ Full m' ∧
      e + m.log2 - 52 ≤ e' ∧ e' ≤ e + m.log2 - 51 ∧ (m.log2 ≤ 52 → e' = e + m.log2 - 52) := by
  -- a short number is first written with zeros at its end
  have hamount : (e - (e + m.log2 - 52)).toNat = 52 - m.log2 := by omega
  have hround : UnpackedFloat.round .binary64 s m e =
      roundWithAccuracy .binary64 s (m <<< (52 - m.log2)) (e - (52 - m.log2 : Nat)) .exact := by
    unfold UnpackedFloat.round decreaseExponent
    rw [targetExponent_eq he]
    simp only [hamount]
  have hlog := log2_shiftLeft hm (52 - m.log2)
  obtain ⟨m', e', h, hresult, hfull, hlow, hhigh, hsame⟩ :=
    roundWithAccuracy_full (s := s) (m := m <<< (52 - m.log2)) (e := e - (52 - m.log2 : Nat))
      (by omega) (by omega)
  refine ⟨m', e', h, hround.trans hresult, hfull, by omega, by omega, fun hle => ?_⟩
  have hexp := hsame (by omega)
  omega

theorem normalize_pos (hm : 0 < m) (zeroSign : Sign) :
    UnpackedFloat.normalize .binary64 m e zeroSign =
      UnpackedFloat.round .binary64 .positive m e := by
  have hcompare : compare (m : Int) 0 = .gt := Int.compare_eq_gt.2 (by omega)
  unfold UnpackedFloat.normalize
  rw [hcompare]
  rfl

/-! ## Packing -/

/-- **What the fields of a normal double stand for.** -/
theorem unpack_components (fraction : BitVec 52) {biased : Nat} (hpos : 0 < biased)
    (hlt : biased < 2047) :
    UnpackedFloat.unpack .binary64 (packComponents .binary64 s (BitVec.ofNat 11 biased) fraction) =
      .finite s (2 ^ 52 + fraction.toNat) (biased - 1075) (by omega) := by
  have hexp : (BitVec.ofNat 11 biased).toNat = biased := by
    rw [BitVec.toNat_ofNat, Nat.mod_eq_of_lt (by omega)]
  have hones : BitVec.ofNat 11 biased ≠ -1#11 := by
    intro h
    have hnat : (BitVec.ofNat 11 biased).toNat = 2047 := congrArg BitVec.toNat h
    omega
  have hzero : BitVec.ofNat 11 biased ≠ 0#11 := by
    intro h
    have hnat : (BitVec.ofNat 11 biased).toNat = 0 := congrArg BitVec.toNat h
    omega
  have hmantissa : (1#1 ++ fraction).toNat = 2 ^ 52 + fraction.toNat := by
    rw [BitVec.toNat_append, ← Nat.shiftLeft_add_eq_or_of_lt fraction.isLt]
    rfl
  unfold UnpackedFloat.unpack
  simp only [unpackMantissa_packComponents, unpackExponent_packComponents,
    unpackSign_packComponents, Sign.ofBitVec_toBitVec, if_neg hones, if_neg hzero, hexp, hmantissa]
  rfl

/-- **Packing keeps a full mantissa** whose exponent is in range. -/
theorem unpack_pack (hm : Full m) (hlow : -1074 ≤ e) (hhigh : e ≤ 971) :
    UnpackedFloat.unpack .binary64 (UnpackedFloat.pack .binary64 (.finite s m e hm.pos)) =
      .finite s m e hm.pos := by
  obtain ⟨biased, rfl⟩ : ∃ biased : Nat, e = biased - 1075 := ⟨(e + 1075).toNat, by omega⟩
  have hpack : UnpackedFloat.pack .binary64 (.finite s m (biased - 1075) hm.pos) =
      packComponents .binary64 s (BitVec.ofNat 11 biased) (BitVec.ofNat 52 m) := by
    have hfield : ((biased : Int) - 1075 + (1023 : Nat) + (52 : Nat)).toNat = biased := by omega
    have hrange : ¬ 2 ^ 11 ≤ biased + 1 := by omega
    have hlength : m.log2 + 1 = 53 := by rw [hm.log2]
    show (if 2 ^ 11 ≤ ((biased : Int) - 1075 + (1023 : Nat) + (52 : Nat)).toNat + 1 then _
      else if m.log2 + 1 = 53 then packComponents .binary64 s
        (BitVec.ofNat 11 ((biased : Int) - 1075 + (1023 : Nat) + (52 : Nat)).toNat)
        (BitVec.ofNat 52 m) else _) = _
    rw [hfield, if_neg hrange, if_pos hlength]
  -- the fraction lacks the first bit, which every full mantissa has
  have hmantissa : 2 ^ 52 + (BitVec.ofNat 52 m).toNat = m := by
    have hleast := hm.1
    have hmost := hm.2
    rw [BitVec.toNat_ofNat]
    omega
  rw [hpack, unpack_components _ (by omega) (by omega)]
  simp only [hmantissa]

/-! ## Counts -/

/-- A count above zero is a positive finite double, though it may be rounded. -/
theorem unpack_toFloat {n : UInt64} (hn : n ≠ 0) :
    ∃ m e h, n.toFloat.toModel.unpack = .finite .positive m e h := by
  have hpos : 0 < n.toNat := by
    have hne : n.toNat ≠ 0 := fun h => hn (UInt64.toNat_inj.1 h)
    omega
  have hlength : n.toNat.log2 < 64 := (Nat.log2_lt (Nat.ne_of_gt hpos)).2 n.toNat_lt
  obtain ⟨m, e, h, hround, hfull, hlow, hhigh, -⟩ :=
    round_full (s := .positive) (e := 0) hpos (by omega)
  have hmodel : n.toFloat.toModel.unpack =
      UnpackedFloat.unpack .binary64 (UnpackedFloat.pack .binary64
        (UnpackedFloat.normalize .binary64 n.toNat 0 .positive)) := rfl
  refine ⟨m, e, h, ?_⟩
  rw [hmodel, normalize_pos hpos, hround]
  exact unpack_pack hfull (by omega) (by omega)

/-- **Zero over a count above zero is zero.** -/
theorem zero_div_toFloat {n : UInt64} (hn : n ≠ 0) : (0 : UInt64).toFloat / n.toFloat = 0.0 := by
  obtain ⟨m, e, h, hunpack⟩ := unpack_toFloat hn
  have hzero : (0 : UInt64).toFloat.toModel.unpack = .zero .positive := by rfl
  have hdiv : (0 : UInt64).toFloat / n.toFloat = ⟨Float.Model.pack
    (UnpackedFloat.div .binary64 (0 : UInt64).toFloat.toModel.unpack n.toFloat.toModel.unpack)⟩ := rfl
  have hresult : Float.ofModel (Float.Model.pack (.zero .positive)) = 0.0 := by decide +kernel
  rw [hdiv, hunpack, hzero]
  exact hresult

/-! ## Rolls -/

/-- The bits of a double from one up to two. -/
theorem bits_from_one {v : UInt64} (hv : v.toNat < 2 ^ 52) :
    ((0x3FF0000000000000 : UInt64) ||| v).toBitVec =
      packComponents .binary64 .positive (BitVec.ofNat 11 1023) (BitVec.ofNat 52 v.toNat) := by
  apply BitVec.eq_of_toNat_eq
  have hfields : (packComponents .binary64 .positive (BitVec.ofNat 11 1023)
      (BitVec.ofNat 52 v.toNat)).toNat = 0x3FF <<< 52 ||| (BitVec.ofNat 52 v.toNat).toNat :=
    BitVec.toNat_append ..
  rw [hfields, BitVec.toNat_ofNat, Nat.mod_eq_of_lt hv]
  exact UInt64.toNat_or ..

theorem unpack_from_one {v : UInt64} (hv : v.toNat < 2 ^ 52) :
    (Float.ofBits (0x3FF0000000000000 ||| v)).toModel.unpack =
      .finite .positive (2 ^ 52 + v.toNat) (-52) (by omega) := by
  have hfull : Full (2 ^ 52 + v.toNat) := ⟨by omega, by omega⟩
  have hfraction : (BitVec.ofNat 52 v.toNat).toNat = v.toNat := by
    rw [BitVec.toNat_ofNat, Nat.mod_eq_of_lt hv]
  have hbits : UnpackedFloat.unpack .binary64 ((0x3FF0000000000000 : UInt64) ||| v).toBitVec =
      .finite .positive (2 ^ 52 + v.toNat) (-52) hfull.pos := by
    rw [bits_from_one hv, unpack_components _ (by decide) (by decide)]
    simp only [hfraction]
    rfl
  have hmodel : (Float.ofBits (0x3FF0000000000000 ||| v)).toModel.unpack =
      UnpackedFloat.unpack .binary64 (UnpackedFloat.pack .binary64
        (UnpackedFloat.unpack .binary64 ((0x3FF0000000000000 : UInt64) ||| v).toBitVec)) := rfl
  rw [hmodel, hbits]
  exact unpack_pack hfull (by decide) (by decide)

/-- **To take one from a double from one up to two** leaves what its fraction says. -/
theorem unpack_sub_one {v : UInt64} (hv : v.toNat < 2 ^ 52) :
    (Float.ofBits (0x3FF0000000000000 ||| v) - 1.0).toModel.unpack =
      UnpackedFloat.unpack .binary64 (UnpackedFloat.pack .binary64
        (UnpackedFloat.normalize .binary64 v.toNat (-52) .positive)) := by
  have hone : (1.0 : Float) = Float.ofBits (0x3FF0000000000000 ||| 0) := by decide +kernel
  have hmodel : (Float.ofBits (0x3FF0000000000000 ||| v) - 1.0).toModel.unpack =
      UnpackedFloat.unpack .binary64 (UnpackedFloat.pack .binary64
        (UnpackedFloat.sub .binary64 (Float.ofBits (0x3FF0000000000000 ||| v)).toModel.unpack
          (1.0 : Float).toModel.unpack)) := rfl
  have hdifference : ((2 ^ 52 + v.toNat : Nat) : Int) - (2 ^ 52 + (0 : UInt64).toNat : Nat) =
      v.toNat := by
    rw [UInt64.toNat_zero]
    omega
  rw [hmodel, hone, unpack_from_one hv, unpack_from_one (by decide)]
  simp only [UnpackedFloat.sub, decreaseExponent, min_self, Int.sub_self, Int.toNat_zero,
    Nat.shiftLeft_zero, Sign.apply, hdifference]

/-- **A double of the half-open unit interval is below one**, whatever the word. -/
theorem unitOfWord_lt_one (w : UInt64) : Sampler.unitOfWord w < 1.0 := by
  have hv : (w >>> 12).toNat < 2 ^ 52 := by
    have hword := w.toNat_lt
    rw [UInt64.toNat_shiftRight]
    show w.toNat >>> 12 < _
    rw [Nat.shiftRight_eq_div_pow]
    omega
  have hone : (1.0 : Float).toModel.unpack = .finite .positive (2 ^ 52) (-52) (by decide) := by rfl
  suffices h : (Sampler.unitOfWord w).toModel.unpack.lt (1.0 : Float).toModel.unpack = true from
    decide_eq_true h
  unfold Sampler.unitOfWord
  rw [unpack_sub_one hv, hone]
  rcases Nat.eq_zero_or_pos (w >>> 12).toNat with hzero | hpos
  · rw [hzero]
    rfl
  · have hlength : (w >>> 12).toNat.log2 < 52 := (Nat.log2_lt (Nat.ne_of_gt hpos)).2 hv
    obtain ⟨m, e, h, hround, hfull, -, -, hexact⟩ :=
      round_full (s := .positive) (e := -52) hpos (by omega)
    have hexp : e = -52 + (w >>> 12).toNat.log2 - 52 := hexact (by omega)
    rw [normalize_pos hpos, hround, unpack_pack hfull (by omega) (by omega)]
    -- of two full mantissas the one with the smaller exponent is less
    have hcompare : compare e (-52) = .lt := Int.compare_eq_lt.2 (by omega)
    simp only [UnpackedFloat.lt, UnpackedFloat.compare, hcompare]
    rfl

end SmlSynth.Double
