import Nightcore.Gateway.Handlers

/-! The sizes `OnRecvMessage` derives from `payload_size`: `-payload_size` for a shm
invocation and `std::abs(payload_size)` for a completion, both in 32-bit `int`
arithmetic, then `gsl::narrow_cast<size_t>`. They are the magnitude of `payload_size`
for every value but `INT32_MIN`, where the negation overflows. -/

namespace Nightcore.Gateway

open Server

theorem Int32.toSizeT_neg {x : Int32} (hx : x.val < 0) (h : ¬ x.NegOverflows) :
    x.neg.toSizeT = x.val.natAbs := by
  rw [Int32.toSizeT_of_nonneg (by rw [Int32.neg_val h]; omega), Int32.neg_val h]
  omega

theorem Int32.toSizeT_abs {x : Int32} (h : ¬ x.NegOverflows) : x.abs.toSizeT = x.val.natAbs := by
  unfold Int32.abs
  split_ifs with hx
  · exact Int32.toSizeT_neg hx h
  · rw [Int32.toSizeT_of_nonneg (by omega)]; omega

theorem payload_sizes_of_ne_min (m : Message) (h : ¬ m.payloadSize.NegOverflows) :
    (invokeInput m).1 = m.payloadSize.val.natAbs ∧
      (invokeInput m).2.2 = decide (m.payloadSize.val < 0) ∧
      completeOutputSize m = m.payloadSize.val.natAbs := by
  refine ⟨?_, ?_, Int32.toSizeT_abs h⟩ <;> unfold invokeInput <;> split_ifs with hx
  · exact Int32.toSizeT_neg hx h
  · rw [Int32.toSizeT_of_nonneg (by omega)]; omega
  · simp [hx]
  · simp [hx]

/-- At `payload_size = INT32_MIN` the negation overflows, and both sizes come out as
`2^64 - 2^31` instead of `2^31`. -/
theorem payload_sizes_at_int32_min (m : Message) :
    { m with payloadSize := Int32.minValue }.payloadSize.NegOverflows ∧
      (invokeInput { m with payloadSize := Int32.minValue }).1 = 18446744071562067968 ∧
      completeOutputSize { m with payloadSize := Int32.minValue } = 18446744071562067968 ∧
      Int32.minValue.val.natAbs = 2147483648 := by
  have hneg : Int32.minValue.neg.toSizeT = 18446744071562067968 := by decide
  refine ⟨rfl, ?_, ?_, rfl⟩
  · simpa [invokeInput, Int32.minValue] using hneg
  · simpa [completeOutputSize, Int32.abs, Int32.minValue] using hneg

end Nightcore.Gateway
