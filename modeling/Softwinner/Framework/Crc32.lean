import Mathlib.Logic.Function.Iterate
import Softwinner.Framework.Bytes

/-!
# CRC-32

The cyclic redundancy check of zlib (reflected polynomial `0xEDB88320`, all ones in and out),
bit by bit, and the one property of it that concrete examples need: messages that differ in a
single byte have different checksums (`crc32_ne_of_byte`).  Every step of the register is
injective, so a difference once in the register never leaves it; no checksum is evaluated.
-/

namespace Framework

/-- One shift of the register. -/
def crcBit (c : BitVec 32) : BitVec 32 :=
  if c.getLsbD 0 then (c >>> 1) ^^^ 0xEDB88320#32 else c >>> 1

/-- One byte through the register. -/
def crcByte (c : BitVec 32) (x : UInt8) : BitVec 32 :=
  crcBit^[8] (c ^^^ x.toBitVec.setWidth 32)

/-- zlib's `crc32(0, buf, len)`. -/
def crc32 (b : Bytes) : UInt32 := UInt32.ofBitVec (~~~b.foldl crcByte (~~~0#32))

/-- The bit shifted out decides the top bit of the result. -/
lemma crcBit_getLsbD_top (c : BitVec 32) : (crcBit c).getLsbD 31 = c.getLsbD 0 := by
  have hpoly : (0xEDB88320#32).getLsbD 31 = true := by decide
  have hshift : (c >>> 1).getLsbD 31 = false := by
    rw [BitVec.getLsbD_ushiftRight]
    exact BitVec.getLsbD_of_ge _ _ (by omega)
  unfold crcBit
  cases hc : c.getLsbD 0 with
  | false => rw [if_neg (by simp), hshift]
  | true => rw [if_pos rfl, BitVec.getLsbD_xor, hshift, hpoly, Bool.false_xor]

lemma crcBit_injective : Function.Injective crcBit := by
  intro a b hab
  have hlow : a.getLsbD 0 = b.getLsbD 0 := by
    rw [← crcBit_getLsbD_top a, hab, crcBit_getLsbD_top b]
  have hshift : a >>> 1 = b >>> 1 := by
    unfold crcBit at hab
    rw [hlow] at hab
    cases hb : b.getLsbD 0 with
    | false =>
      rw [hb, if_neg (by simp), if_neg (by simp)] at hab
      exact hab
    | true =>
      rw [hb, if_pos rfl, if_pos rfl] at hab
      exact BitVec.xor_left_inj _ |>.mp hab
  apply BitVec.eq_of_getLsbD_eq
  intro i hi
  cases i with
  | zero => exact hlow
  | succ n =>
    have hn := congrArg (fun v => v.getLsbD n) hshift
    simpa only [BitVec.getLsbD_ushiftRight, Nat.add_comm 1 n] using hn

lemma crcByte_injective (x : UInt8) : Function.Injective fun c => crcByte c x := by
  intro a b hab
  exact BitVec.xor_left_inj _ |>.mp (crcBit_injective.iterate 8 hab)

lemma foldl_crcByte_injective (b : Bytes) :
    Function.Injective fun c => b.foldl crcByte c := by
  induction b with
  | nil => exact fun _ _ h => h
  | cons x b ih =>
    intro c d hcd
    exact crcByte_injective x (ih hcd)

/-- A single changed byte changes the checksum. -/
lemma crc32_ne_of_byte (pre post : Bytes) {x y : UInt8} (hxy : x ≠ y) :
    crc32 (pre ++ x :: post) ≠ crc32 (pre ++ y :: post) := by
  intro h
  have hreg : (pre ++ x :: post).foldl crcByte (~~~0#32) =
      (pre ++ y :: post).foldl crcByte (~~~0#32) := by
    have hbv := congrArg UInt32.toBitVec h
    exact BitVec.not_inj.mp hbv
  rw [List.foldl_append, List.foldl_append, List.foldl_cons, List.foldl_cons] at hreg
  have hbyte := crcBit_injective.iterate 8 (foldl_crcByte_injective post hreg)
  have hbits : x.toBitVec.setWidth 32 = y.toBitVec.setWidth 32 :=
    BitVec.xor_right_inj _ |>.mp hbyte
  apply hxy
  apply UInt8.toBitVec_inj.mp
  apply BitVec.eq_of_getLsbD_eq
  intro i hi
  have hbit := congrArg (fun v => v.getLsbD i) hbits
  simpa [BitVec.getLsbD_setWidth, show i < 32 by omega] using hbit

end Framework
