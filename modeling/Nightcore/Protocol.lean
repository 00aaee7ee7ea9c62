import Mathlib.Data.List.AList

/-! The wire data the gateway reads: `FuncCall`, the fields of a `Message`, and the
32-bit signed arithmetic `OnRecvMessage` does on `payload_size`. A `FuncCall` and its
`full_call_id` are one union in the source, so the record itself serves as the id. -/

namespace Nightcore

/-- `protocol::FuncCall`, read through its fields. -/
structure FuncCall where
  funcId : UInt16
  methodId : UInt16
  clientId : UInt16
  callId : UInt32
deriving DecidableEq, Repr

def newFuncCall (funcId clientId : UInt16) (callId : UInt32) : FuncCall :=
  ⟨funcId, 0, clientId, callId⟩

def newFuncCallWithMethod (funcId methodId clientId : UInt16) (callId : UInt32) : FuncCall :=
  ⟨funcId, methodId, clientId, callId⟩

/-- An `int32_t`, or an `int` of the 32-bit targets the gateway is built for. -/
structure Int32 where
  val : Int
  ge : -2147483648 ≤ val
  lt : val < 2147483648
deriving DecidableEq

namespace Int32

/-- Two's-complement wrap of an integer into 32 bits. -/
def ofInt (z : Int) : Int32 :=
  ⟨(z + 2147483648) % 4294967296 - 2147483648, by omega, by omega⟩

def minValue : Int32 := ⟨-2147483648, by decide, by decide⟩

def zero : Int32 := ⟨0, by decide, by decide⟩

/-- `-x` on an `int`. The hardware wraps; C++ leaves `-INT32_MIN` undefined. -/
def neg (x : Int32) : Int32 := ofInt (-x.val)

/-- The one value whose negation overflows. -/
def NegOverflows (x : Int32) : Prop := x.val = -2147483648

instance (x : Int32) : Decidable x.NegOverflows := inferInstanceAs (Decidable (_ = _))

/-- `std::abs` on an `int`, with the same wrap at `INT32_MIN`. -/
def abs (x : Int32) : Int32 := if x.val < 0 then x.neg else x

/-- `gsl::narrow_cast<size_t>(x)`: a `static_cast`, so the value modulo `2^64`. -/
def toSizeT (x : Int32) : Nat := (x.val % 18446744073709551616).toNat

theorem ofInt_val_of_mem {z : Int} (h1 : -2147483648 ≤ z) (h2 : z < 2147483648) :
    (ofInt z).val = z := by
  simp only [ofInt]
  omega

theorem neg_val {x : Int32} (h : ¬ x.NegOverflows) : x.neg.val = -x.val :=
  ofInt_val_of_mem (by have := x.lt; omega) (by unfold NegOverflows at h; have := x.ge; omega)

theorem toSizeT_of_nonneg {x : Int32} (h : 0 ≤ x.val) : x.toSizeT = x.val.toNat := by
  have := x.lt
  simp only [toSizeT]
  rw [Int.emod_eq_of_lt h (by omega)]

end Int32

inductive MessageType
  | launcherHandshake
  | funcWorkerHandshake
  | handshakeResponse
  | invokeFunc
  | funcCallComplete
  | funcCallFailed
deriving DecidableEq, Repr

/-- The fields of `protocol::Message` the gateway reads; `inlineData` is
`GetInlineDataFromMessage`, the payload bytes that follow the header. -/
structure Message where
  messageType : MessageType
  funcCall : FuncCall
  parentCallId : FuncCall
  payloadSize : Int32
  processingTime : Int32
  dispatchDelay : Int32
  inlineData : List UInt8
deriving DecidableEq

end Nightcore
