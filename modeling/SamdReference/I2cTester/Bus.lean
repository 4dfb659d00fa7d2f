import SamdReference.I2cTester.Driver

/-!
# The bus behind the driver

A device is given by what a transfer does to it and what it answers. The contract here
is the one the ground relies on. A request handed back as `I2C_OTHER_ERR` was refused, or
given up when the driver's watchdog recovered the bus: it may have reached the device or
not, wholly or in part. Any other request was carried out once, on the bytes found in the
lent storage, with the status and the received bytes of the device. It says nothing about
when a request is handed back or what happens in between.
-/

namespace CuriosityReference.I2cTester

open Reentrant (Monitor)

variable {δ : Type}

/-- How a transfer ended, the bytes received and the device after it. -/
structure Outcome (δ : Type) where
  status : I2cStatus
  received : List UInt8
  device : δ

/-- What a transfer does to a device, given the address, the bytes transmitted and how
many are then read, and what one that was given up has done to it. Whatever decides
how far such a transfer got belongs to the device's state here. -/
structure Device (δ : Type) where
  transfer : δ → UInt32 → List UInt8 → Nat → Outcome δ
  giveUp : δ → UInt32 → List UInt8 → Nat → δ

/-- The contents of the registers of a device. -/
abbrev Registers := UInt8 → UInt8

/-- The `n` registers from an offset on. The offset wraps at the end of the device. -/
def Registers.window (regs : Registers) (offset : UInt8) (n : Nat) : List UInt8 :=
  (List.range n).map fun i => regs (offset + UInt8.ofNat i)

/-- A memory of byte registers at one address. The first byte transmitted selects a
register; a second one is stored there, and bytes are read from there on. A transfer
that is given up has not reached it. -/
def eeprom (address : UInt32) : Device Registers where
  transfer regs addr sent n :=
    if addr ≠ address then ⟨.addressErr, [], regs⟩
    else
      match sent with
      | [offset] => ⟨.ok, regs.window offset n, regs⟩
      | [offset, value] => ⟨.ok, [], Function.update regs offset value⟩
      | _ => ⟨.writeErr, [], regs⟩
  giveUp regs _ _ _ := regs

/-- A device whose driver gives transfers up before or after they took place: the next
of the marks says which. -/
def Device.marked (D : Device δ) : Device (δ × List Bool) where
  transfer device addr sent n :=
    let done := D.transfer device.1 addr sent n
    ⟨done.status, done.received, (done.device, device.2)⟩
  giveUp device addr sent n :=
    (if device.2.headD false then (D.transfer device.1 addr sent n).device
      else D.giveUp device.1 addr sent n,
      device.2.tail)

/-- The bytes of the storage behind a descriptor. -/
def bytes (t : I2cTester) (buffer : Buffer) : List UInt8 :=
  (List.range buffer.size).filterMap (t.index? buffer.data)

/-- The device after a request was carried out, when the status handed back and the
bytes now in the receive storage are the device's. -/
def Device.transfer? (D : Device δ) (device : δ) (t : I2cTester) (status : I2cStatus) :
    Request → Option δ
  | .writeRead addr txBuf rxBuf =>
      let done := D.transfer device addr (t.bytes txBuf) rxBuf.size
      if status = done.status ∧ (status = .ok → t.bytes rxBuf = done.received) then
        some done.device
      else none
  | .write addr wrBuf =>
      let done := D.transfer device addr (t.bytes wrBuf) 0
      if status = done.status then some done.device else none

/-- The device after a request was given up. -/
def Device.givenUp (D : Device δ) (device : δ) (t : I2cTester) : Request → δ
  | .writeRead addr txBuf rxBuf => D.giveUp device addr (t.bytes txBuf) rxBuf.size
  | .write addr wrBuf => D.giveUp device addr (t.bytes wrBuf) 0

/-- The device and the requests not handed back yet. -/
structure Bus (δ : Type) where
  device : δ
  pending : List Transaction

/-- The requests still pending when one is handed back. -/
def Bus.without (b : Bus δ) (m : Input) : List Transaction :=
  b.pending.eraseP fun x => x.request.identical m

/-- A request is handed back with its own descriptors, and the driver never stores into
the transmit buffer. -/
def bus (D : Device δ) (device : δ) : Monitor I2cTester Input Port (Bus δ) where
  start := ⟨device, []⟩
  recv
    | .storeWriteBuffer _ _, _, _ => none
    | m, t, b =>
        match m.completion? with
        | none => some b
        | some (_, status) =>
            match b.pending.find? fun x => x.request.identical m with
            | none => none
            | some x =>
                if status = .otherErr then
                  some ⟨D.givenUp b.device t x.request, b.without m⟩
                else (D.transfer? b.device t status x.request).map (⟨·, b.without m⟩)
  call o t b := { b with pending := b.pending ++ (o.begins t).toList }
  back _ b := b

section Storage

variable (t : I2cTester)

theorem bytes_txBuf_one : t.bytes (txBuf 1) = [t.writeBuffer.get 0] := by
  simp [bytes, txBuf, index?, Vector.get]

theorem bytes_txBuf_two :
    t.bytes (txBuf 2) = [t.writeBuffer.get 0, t.writeBuffer.get 1] := by
  simp [bytes, txBuf, index?, Vector.get, List.range_succ]

/-- Reading positions in order as far as there are any gives a prefix. -/
theorem range_filterMap_getElem? {α : Type} (l : List α) (n : Nat) :
    (List.range n).filterMap (fun i => l[i]?) = l.take n := by
  induction n with
  | zero => rfl
  | succ n ih =>
      rw [List.range_succ, List.filterMap_append, ih, List.take_add_one]
      cases h : l[n]? <;> simp [h]

theorem bytes_rxBuf (n : Nat) : t.bytes (rxBuf n) = t.readBuffer.toList.take n := by
  have inside : t.index? (.readBuffer 0) = fun i => t.readBuffer.toList[i]? := by
    funext i
    simp [index?]
  rw [← range_filterMap_getElem? t.readBuffer.toList n, ← inside]
  rfl

end Storage

end CuriosityReference.I2cTester
