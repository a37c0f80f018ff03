import LambGateway.QueueServer.Pull

/-!
# The push loops of the queue servers

A push loop copies the fields of a message into a new record, each text with a bound of its own;
the pull loop packs the record again. A message that passes through a queue keeps what the
bounds leave of it.
-/

namespace LambGateway.QueueServer

open Framework

def packSubmit (m : LambSubmit) : Submit where
  id := m.id
  account := m.account
  company := m.company
  spid := m.spid.text
  spcode := m.spcode.text
  phone := m.phone.text
  msgfmt := m.msgfmt
  length := Int32.ofNat m.content.bytes.length
  content := m.content.bytes

def packDeliver (d : LambDeliver) : Deliver where
  id := d.id
  account := d.account
  company := d.company
  phone := d.phone.text
  spcode := d.spcode.text
  serviceid := d.serviceid.text
  msgfmt := d.msgfmt
  length := Int32.ofNat d.content.bytes.length
  content := d.content.bytes

theorem submitFrame_eq (m : LambSubmit) : submitFrame m = .submit (packSubmit m) := rfl

theorem messageFrame_deliver (d : LambDeliver) :
    messageFrame (.deliver d) = .deliver (packDeliver d) :=
  rfl

theorem spid_le : 6 ≤ 7 := by decide

theorem phone_le : 11 ≤ 20 := by decide

/-- The record that mt and scheduler queue. -/
def pushSubmit (packet : Submit) : LambSubmit where
  id := packet.id
  account := packet.account
  company := packet.company
  spid := (strncpy packet.spid 6).widen 7 spid_le
  spcode := strncpy packet.spcode 20
  phone := (strncpy packet.phone 11).widen 20 phone_le
  msgfmt := packet.msgfmt
  content := Content.ofBytes packet.content

def Mt.lambPushLoop : Submit → LambSubmit := pushSubmit

def Scheduler.lambPushLoop : Submit → LambSubmit := pushSubmit

def Mo.lambPushLoop (dpack : Deliver) : LambDeliver where
  account := dpack.account
  company := dpack.company
  id := dpack.id
  phone := (strncpy dpack.phone 11).widen 20 phone_le
  spcode := strncpy dpack.spcode 20
  serviceid := strncpy dpack.serviceid 10
  msgfmt := dpack.msgfmt
  content := Content.ofBytes dpack.content

/-- The delivery program leaves `company` and `serviceid` as `calloc` made them. -/
def Delivery.lambPushLoop (d : Deliver) : LambDeliver where
  account := 0
  company := 0
  id := d.id
  phone := (strncpy d.phone 11).widen 20 phone_le
  spcode := strncpy d.spcode 20
  serviceid := strncpy [] 10
  msgfmt := d.msgfmt
  content := Content.ofBytes d.content

/-! ## Through a queue -/

/-- What mt and scheduler hand out for a message they were given. -/
theorem packSubmit_pushSubmit (m : Submit) :
    packSubmit (pushSubmit m) =
      { m with
        spid := (cstr m.spid).take 6
        spcode := (cstr m.spcode).take 20
        phone := (cstr m.phone).take 11
        length := Int32.ofNat (m.content.take 160).length
        content := m.content.take 160 } :=
  rfl

theorem packDeliver_mo (m : Deliver) :
    packDeliver (Mo.lambPushLoop m) =
      { m with
        phone := (cstr m.phone).take 11
        spcode := (cstr m.spcode).take 20
        serviceid := (cstr m.serviceid).take 10
        length := Int32.ofNat (m.content.take 160).length
        content := m.content.take 160 } :=
  rfl

theorem packDeliver_delivery (m : Deliver) :
    packDeliver (Delivery.lambPushLoop m) =
      { m with
        account := 0
        company := 0
        phone := (cstr m.phone).take 11
        spcode := (cstr m.spcode).take 20
        serviceid := []
        length := Int32.ofNat (m.content.take 160).length
        content := m.content.take 160 } :=
  rfl

end LambGateway.QueueServer
