import LambGateway.Framework.CText

/-!
# Records and messages

The records that the programs queue (`common.h`), with their arrays as types that carry the
bound, and the messages that the frames between the programs carry (`message.proto`).
-/

namespace LambGateway

open Framework

/-- The content array of a record: up to 160 bytes of text, zero behind it. -/
@[ext]
structure Content where
  bytes : Bytes
  length_le : bytes.length ≤ 160
  deriving DecidableEq

namespace Content

def array (c : Content) : Bytes := c.bytes ++ List.replicate (160 - c.bytes.length) 0

@[simp] theorem array_length (c : Content) : c.array.length = 160 := by
  have h := c.length_le
  rw [array, List.length_append, List.length_replicate]
  omega

/-- What a copy leaves in the array. -/
def ofBytes (bytes : Bytes) : Content := ⟨bytes.take 160, List.length_take_le _ _⟩

theorem ofBytes_bytes {bytes : Bytes} (h : bytes.length ≤ 160) : (ofBytes bytes).bytes = bytes :=
  List.take_of_length_le h

end Content

/-- `lamb_submit_t`, with `length` as the length of `content`. -/
structure LambSubmit where
  id : UInt64
  account : Int32
  company : Int32
  spid : CString 7
  spcode : CString 20
  phone : CString 20
  msgfmt : Int32
  content : Content
  deriving DecidableEq

/-- `lamb_deliver_t`, with `length` as the length of `content`. -/
structure LambDeliver where
  account : Int32
  company : Int32
  id : UInt64
  phone : CString 20
  spcode : CString 20
  serviceid : CString 10
  msgfmt : Int32
  content : Content
  deriving DecidableEq

structure LambReport where
  account : Int32
  company : Int32
  id : UInt64
  spcode : CString 20
  phone : CString 20
  status : Int32
  submittime : CString 10
  donetime : CString 10
  deriving DecidableEq

/-- `lamb_account_t`, as far as messages take fields from it. -/
structure LambAccount where
  id : Int32
  username : CString 7
  spcode : CString 20
  company : Int32

/-- `lamb_delivery_t`: what is sent to a code that matches `rexp` goes to the account `target`. -/
structure LambDelivery where
  id : Int32
  rexp : CString 127
  target : Int32
  deriving DecidableEq

structure Submit where
  id : UInt64
  account : Int32
  company : Int32
  spid : Bytes
  spcode : Bytes
  phone : Bytes
  msgfmt : Int32
  length : Int32
  content : Bytes
  deriving DecidableEq

structure Report where
  id : UInt64
  account : Int32
  company : Int32
  spcode : Bytes
  phone : Bytes
  status : Int32
  submittime : Bytes
  donetime : Bytes
  deriving DecidableEq

structure Deliver where
  id : UInt64
  account : Int32
  company : Int32
  phone : Bytes
  spcode : Bytes
  serviceid : Bytes
  msgfmt : Int32
  length : Int32
  content : Bytes
  deriving DecidableEq

end LambGateway
