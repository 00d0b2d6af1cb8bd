import Hotelia.Hardware.LiveEncode
import Hotelia.Hardware.TcpChannel

/-!
# Packets of two requests

A packet has the low bytes of the fields of its request, with a bar between any two of them.
Only the room number is kept from having bars and line ends.

## Main results

- `packets_tell_apart_iff`: when the packets of two accepted requests tell them apart.
-/

namespace Hotelia.Hardware
open Foundation

/-- The byte of `|`. -/
def bar : UInt8 := 124

/-- The byte of a line end. -/
def lineEnd : UInt8 := 10

theorem asciiBytes_append (s t : String) : asciiBytes (s ++ t) = asciiBytes s ++ asciiBytes t := by
  rw [asciiBytes, String.toList_append, List.flatMap_append, List.map_append]
  rfl

/-- What of a packet is between the command and the line end. -/
def EncodeRequest.body (req : EncodeRequest) : List UInt8 :=
  asciiBytes req.deviceId ++ bar :: (asciiBytes req.roomNumber ++ bar :: asciiBytes req.credential)

theorem buildPacket_eq (req : EncodeRequest) :
    buildPacket req = encodeCmd ++ req.body ++ [lineEnd] := by
  have hbar : asciiBytes "|" = [bar] := by decide
  have hend : asciiBytes "\n" = [lineEnd] := by decide
  rw [buildPacket, asciiBytes_append, asciiBytes_append, asciiBytes_append, asciiBytes_append,
    hbar, hend, EncodeRequest.body]
  simp only [List.append_assoc, List.cons_append, List.nil_append]

/-! ## Bytes of a room number -/

/-- A letter that room numbers may have is one byte, and neither a bar nor a line end. -/
theorem roomLetter_bytes {c : Char} (h : (c.isAlphanum || c == '-') = true) {byte : UInt8}
    (hbyte : byte ∈ (codeUnits c).map UInt8.ofNat) : byte ≠ bar ∧ byte ≠ lineEnd := by
  have hrange : c.toNat < 128 ∧ c.toNat ≠ 124 ∧ c.toNat ≠ 10 := by
    rcases Bool.or_eq_true_iff.mp h with h | h
    · have hletter : ((decide (65 ≤ c.val ∧ c.val ≤ 90) || 97 ≤ c.val && c.val ≤ 122) ||
          48 ≤ c.val && c.val ≤ 57) = true := h
      simp [UInt32.le_iff_toNat_le] at hletter
      omega
    · rw [beq_iff_eq.mp h]
      decide
  obtain ⟨hsmall, hbar, hend⟩ := hrange
  have hval : c.val < 0x10000 := UInt32.lt_iff_toNat_lt.mpr (Nat.lt_trans hsmall (by decide))
  rw [codeUnits, if_pos hval, List.map_singleton, List.mem_singleton] at hbyte
  subst hbyte
  have hmod : c.toNat % 256 = c.toNat := Nat.mod_eq_of_lt (by omega)
  constructor
  · intro heq
    exact hbar (hmod.symm.trans (congrArg UInt8.toNat heq))
  · intro heq
    exact hend (hmod.symm.trans (congrArg UInt8.toNat heq))

theorem roomNumber_bytes {req : EncodeRequest} (h : lockEncodeSchema req = true) {byte : UInt8}
    (hbyte : byte ∈ asciiBytes req.roomNumber) : byte ≠ bar ∧ byte ≠ lineEnd := by
  simp only [lockEncodeSchema, Bool.and_eq_true, List.all_eq_true] at h
  obtain ⟨unit, hunit, rfl⟩ := List.mem_map.mp hbyte
  obtain ⟨c, hc, hunit⟩ := List.mem_flatMap.mp hunit
  exact roomLetter_bytes (h.1.2 c hc) (List.mem_map_of_mem hunit)

theorem bar_not_mem_roomNumber {req : EncodeRequest} (h : lockEncodeSchema req = true) :
    bar ∉ asciiBytes req.roomNumber :=
  fun hmem => (roomNumber_bytes h hmem).1 rfl

theorem lineEnd_not_mem_roomNumber {req : EncodeRequest} (h : lockEncodeSchema req = true) :
    lineEnd ∉ asciiBytes req.roomNumber :=
  fun hmem => (roomNumber_bytes h hmem).2 rfl

/-! ## Equal packets -/

/-- The fields have the same low bytes. -/
def SameBytes (a b : EncodeRequest) : Prop :=
  asciiBytes a.deviceId = asciiBytes b.deviceId ∧
    asciiBytes a.roomNumber = asciiBytes b.roomNumber ∧
      asciiBytes a.credential = asciiBytes b.credential

/-- The device id of `b` has a bar and all the room number of `a` behind the device id of `a`,
and perhaps more behind another bar; the credential of `a` has the rest. -/
def Shifted (a b : EncodeRequest) : Prop :=
  ∃ more,
    asciiBytes b.deviceId = asciiBytes a.deviceId ++ bar :: (asciiBytes a.roomNumber ++ more) ∧
    bar :: asciiBytes a.credential =
      more ++ bar :: (asciiBytes b.roomNumber ++ bar :: asciiBytes b.credential)

theorem buildPacket_inj {a b : EncodeRequest} :
    buildPacket a = buildPacket b ↔ a.body = b.body := by
  rw [buildPacket_eq, buildPacket_eq, List.append_cancel_right_eq, List.append_cancel_left_eq]

/-- The rest of a body that goes on behind a longer device id. -/
theorem shifted_iff {a b : EncodeRequest} (ha : lockEncodeSchema a = true) :
    Shifted a b ↔ ∃ z, asciiBytes b.deviceId = asciiBytes a.deviceId ++ bar :: z ∧
      asciiBytes a.roomNumber ++ bar :: asciiBytes a.credential =
        z ++ bar :: (asciiBytes b.roomNumber ++ bar :: asciiBytes b.credential) := by
  constructor
  · rintro ⟨more, hdevice, hrest⟩
    refine ⟨asciiBytes a.roomNumber ++ more, hdevice, ?_⟩
    rw [hrest, List.append_assoc]
  · rintro ⟨z, hdevice, hrest⟩
    -- the room number of `a` has no bar, so that it ends within `z`
    obtain ⟨rfl, hcred⟩ | ⟨y, rfl, hcred⟩ := (cut_eq_iff (bar_not_mem_roomNumber ha)).mp hrest
    · exact ⟨[], by rw [List.append_nil]; exact hdevice, congrArg (bar :: ·) hcred⟩
    · exact ⟨bar :: y, hdevice, congrArg (bar :: ·) hcred⟩

theorem body_eq_iff {a b : EncodeRequest} (ha : lockEncodeSchema a = true)
    (hb : lockEncodeSchema b = true) :
    a.body = b.body ↔ SameBytes a b ∨ Shifted a b ∨ Shifted b a := by
  rw [EncodeRequest.body, EncodeRequest.body, fields_eq_iff, shifted_iff ha, shifted_iff hb]
  refine or_congr ?_ Iff.rfl
  rw [cut_eq_iff (bar_not_mem_roomNumber ha), SameBytes]
  refine and_congr_right fun _ => or_iff_left ?_
  rintro ⟨z, hroom, -⟩
  exact bar_not_mem_roomNumber hb (hroom ▸ List.mem_append_right _ List.mem_cons_self)

/-! ## Line ends -/

/-- The packet has one line end, and it is the last byte. -/
def EndsOnce (packet : List UInt8) : Prop :=
  packet.count lineEnd = 1 ∧ packet.getLast? = some lineEnd

/-- No code unit of the device id or of the credential has the low byte of a line end. -/
def OneLine (req : EncodeRequest) : Prop :=
  lineEnd ∉ asciiBytes req.deviceId ∧ lineEnd ∉ asciiBytes req.credential

theorem endsOnce_buildPacket_iff {req : EncodeRequest} (h : lockEncodeSchema req = true) :
    EndsOnce (buildPacket req) ↔ OneLine req := by
  have hcmd : encodeCmd.count lineEnd = 0 := by decide
  have hroom := List.count_eq_zero.mpr (lineEnd_not_mem_roomNumber h)
  have hbar : (bar == lineEnd) = false := by decide
  have hlast : (buildPacket req).getLast? = some lineEnd := by
    rw [buildPacket_eq, List.getLast?_concat]
  have hcount : (buildPacket req).count lineEnd =
      (asciiBytes req.deviceId).count lineEnd + (asciiBytes req.credential).count lineEnd + 1 := by
    rw [buildPacket_eq, EncodeRequest.body]
    simp [List.count_append, List.count_cons, hcmd, hroom, hbar, Nat.add_assoc]
  rw [EndsOnce, and_iff_left hlast, hcount, OneLine, ← List.count_eq_zero, ← List.count_eq_zero]
  omega

/-- For every two accepted requests: their packets are equal only if they are, and end in their
only line end, exactly if different requests differ in the low bytes of a field and do not share
a body that is cut at other bars, and no device id or credential has the byte of a line end. -/
theorem packets_tell_apart_iff {a b : EncodeRequest} (ha : lockEncodeSchema a = true)
    (hb : lockEncodeSchema b = true) :
    ((buildPacket a = buildPacket b → a = b) ∧ EndsOnce (buildPacket a) ∧
      EndsOnce (buildPacket b)) ↔
      (a ≠ b → ¬ SameBytes a b ∧ ¬ Shifted a b ∧ ¬ Shifted b a) ∧ OneLine a ∧ OneLine b := by
  rw [endsOnce_buildPacket_iff ha, endsOnce_buildPacket_iff hb, buildPacket_inj,
    body_eq_iff ha hb, ← not_imp_not, not_or, not_or]

/-- Two rooms at one encoder. -/
theorem packets_tell_apart_rooms :
    let a : EncodeRequest := ⟨"LDOOR-01", "204", "s3cret"⟩
    let b : EncodeRequest := ⟨"LDOOR-01", "205", "s3cret"⟩
    ((buildPacket a = buildPacket b → a = b) ∧ EndsOnce (buildPacket a) ∧
      EndsOnce (buildPacket b)) ↔
      (a ≠ b → ¬ SameBytes a b ∧ ¬ Shifted a b ∧ ¬ Shifted b a) ∧ OneLine a ∧ OneLine b :=
  packets_tell_apart_iff (by decide) (by decide)

/-- A bar in a device id, and the same bar in a credential. -/
theorem not_packets_tell_apart :
    ¬ ∀ a b : EncodeRequest, lockEncodeSchema a = true → lockEncodeSchema b = true →
      (buildPacket a = buildPacket b → a = b) ∧ EndsOnce (buildPacket a) ∧
        EndsOnce (buildPacket b) := by
  intro h
  have heq := (h ⟨"A|1", "2", "xxxx"⟩ ⟨"A", "1", "2|xxxx"⟩ (by decide) (by decide)).1 (by decide)
  revert heq
  decide

end Hotelia.Hardware
