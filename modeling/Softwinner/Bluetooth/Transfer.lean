import Softwinner.Bluetooth.HwConfig
import Mathlib.Tactic.IntervalCases

/-!
# The packets of a download

The indices and the pieces that `hw_config_cback` sends for an image, packet after packet.  The
index has seven bits, so that an image fits if its packets, with those that fill up the number of
commands to a multiple of eight, are at most 128 less the other commands (`Fits`).  For one that
fits, `sent` is the state of the variables behind each packet (`next_start`, `next_acked`): the
packet `i` has the `i`-th piece of the image, and nothing behind its last piece.
-/

namespace Softwinner.Bluetooth

open Framework

/-! ## The bits of an index -/

lemma or_80_nat : ∀ n < 256, n ||| 128 = if n < 128 then n + 128 else n := by decide +kernel

lemma and_80_nat : ∀ n < 256, n &&& 128 = if n < 128 then 0 else 128 := by decide +kernel

lemma toNat_and_7F (x : UInt8) : (x &&& 0x7F).toNat = x.toNat % 128 := by
  rw [UInt8.toNat_and]
  exact Nat.and_two_pow_sub_one_eq_mod x.toNat 7

lemma toNat_or_80 (x : UInt8) :
    (x ||| 0x80).toNat = if x.toNat < 128 then x.toNat + 128 else x.toNat := by
  rw [UInt8.toNat_or]
  exact or_80_nat _ x.toNat_lt

lemma and_80_ne_zero (x : UInt8) : x &&& 0x80 ≠ 0 ↔ 128 ≤ x.toNat := by
  have hand : (x &&& 0x80).toNat = if x.toNat < 128 then 0 else 128 := by
    rw [UInt8.toNat_and]
    exact and_80_nat _ x.toNat_lt
  rw [Ne, ← UInt8.toNat_inj, hand]
  split_ifs with h
  · exact iff_of_false (fun hne => hne rfl) (Nat.not_le.mpr h)
  · exact iff_of_true (by decide) (Nat.le_of_not_lt h)

lemma toNat_add_one (x : UInt8) : (x + 1).toNat = (x.toNat + 1) % 256 := UInt8.toNat_add x 1

namespace Transfer

/-! ## The plan of a download -/

section Plan

variable (image : Bytes) (commands : ℕ)

/-- The index of the last packet that has something of the image. -/
def lastPiece : ℕ := (image.length - 1) / 252

/-- The index of the last packet. -/
def lastPacket : ℕ := lastPiece image + (8 - (lastPiece image + commands) % 8) % 8

/-- The index byte of a packet: the last one is marked, and so would be any packet behind it. -/
def indexByte (i : ℕ) : UInt8 :=
  if i < lastPacket image commands then UInt8.ofNat i else UInt8.ofNat (128 + i)

/-- The index byte and the bytes of a packet. -/
def packet (i : ℕ) : UInt8 × Bytes := (indexByte image commands i, piece 252 image i)

def Fits : Prop := lastPiece image + commands ≤ 128

/-- The variables behind the packet `i`. -/
def sent (i : ℕ) : Transfer :=
  { start image commands with
    bufpatch := if i ≤ lastPiece image then some (252 * i) else none
    iCurIndex := indexByte image commands i }

end Plan

variable {image : Bytes} {commands i : ℕ}

/-- What an image that fits makes of the plan. -/
structure Planned (image : Bytes) (commands : ℕ) : Prop where
  image_ne : image ≠ []
  fits : Fits image commands
  least : 2 ≤ commands

lemma lastPacket_bounds (h : Planned image commands) :
    lastPiece image ≤ lastPacket image commands ∧
      lastPacket image commands + commands ≤ 128 ∧
      (lastPacket image commands + commands) % 8 = 0 := by
  have hfits := h.fits
  unfold Fits at hfits
  unfold lastPacket
  omega

/-- The image is cut exactly. -/
lemma length_bounds (h : Planned image commands) :
    252 * lastPiece image < image.length ∧ image.length ≤ 252 * lastPiece image + 252 := by
  have hpos := List.length_pos_iff.mpr h.image_ne
  unfold lastPiece
  omega

lemma iEndIndex_start (h : Planned image commands) :
    (start image commands).iEndIndex.toNat = lastPiece image := by
  have hfits := h.fits
  have hleast := h.least
  unfold Fits at hfits
  have hlt : lastPiece image < 2 ^ 8 := by omega
  exact Nat.mod_eq_of_lt hlt

lemma iTotalIndex_start (h : Planned image commands) :
    (start image commands).iTotalIndex.toNat = lastPacket image commands := by
  have hend := iEndIndex_start h
  have hfits := h.fits
  have hleast := h.least
  unfold Fits at hfits
  have hpad : (iAdditionPkt (start image commands).iEndIndex commands).toNat =
      (8 - (lastPiece image + commands) % 8) % 8 := by
    unfold iAdditionPkt
    rw [hend]
    split_ifs with hmod
    · rw [UInt8.toNat_ofNat']
      omega
    · rw [show (0 : UInt8).toNat = 0 from rfl]
      omega
  have hsum : (start image commands).iTotalIndex.toNat =
      ((iAdditionPkt (start image commands).iEndIndex commands).toNat +
        (start image commands).iEndIndex.toNat) % 2 ^ 8 := UInt8.toNat_add ..
  rw [hsum, hpad, hend, lastPacket]
  omega

lemma iLastPacketLen_start (h : Planned image commands) :
    (start image commands).iLastPacketLen.toNat = image.length - 252 * lastPiece image := by
  have hpos := List.length_pos_iff.mpr h.image_ne
  have hmod : (UInt8.ofNat (image.length % 252)).toNat = image.length % 252 := by
    rw [UInt8.toNat_ofNat']
    omega
  show (if UInt8.ofNat (image.length % 252) = 0 then UInt8.ofNat 252
    else UInt8.ofNat (image.length % 252)).toNat = _
  unfold lastPiece
  split_ifs with hzero
  · rw [hzero, show (0 : UInt8).toNat = 0 from rfl] at hmod
    rw [show (UInt8.ofNat 252).toNat = 252 from rfl]
    omega
  · have hne : image.length % 252 ≠ 0 := fun h0 => hzero (by rw [h0]; rfl)
    rw [hmod]
    omega

lemma toNat_indexByte (image : Bytes) (commands : ℕ) (hi : i < 128) :
    (indexByte image commands i).toNat =
      if i < lastPacket image commands then i else 128 + i := by
  unfold indexByte
  split_ifs
  · rw [UInt8.toNat_ofNat']
    omega
  · rw [UInt8.toNat_ofNat']
    omega

/-! ## One packet -/

/-- The pieces up to the last one. -/
lemma fetch_piece (h : Planned image commands) (hi : i ≤ lastPiece image) (len : ℕ)
    (hlen : len = if i < lastPiece image then 252 else image.length - 252 * lastPiece image) :
    fetch image (252 * i) len = some (piece 252 image i) := by
  obtain ⟨hlow, hhigh⟩ := length_bounds h
  rw [fetch_eq_some]
  · congr 1
    by_cases hlast : i < lastPiece image
    · rw [hlen, if_pos hlast, piece]
    · have heq : i = lastPiece image := Nat.le_antisymm hi (Nat.le_of_not_lt hlast)
      rw [hlen, if_neg hlast, piece, slice, slice, heq,
        List.take_of_length_le (by rw [List.length_drop]),
        List.take_of_length_le (by rw [List.length_drop]; omega)]
  · rw [hlen]
    split_ifs with hlast
    · omega
    · have heq : i = lastPiece image := Nat.le_antisymm hi (Nat.le_of_not_lt hlast)
      rw [heq]
      omega

lemma piece_behind (h : Planned image commands) (hi : lastPiece image < i) :
    piece 252 image i = [] := by
  have hhigh := (length_bounds h).2
  rw [piece, slice, List.drop_eq_nil_of_le (by omega), List.take_nil]

/-- The variables in front of the packet `i`. -/
structure Due (image : Bytes) (commands i : ℕ) (t : Transfer) : Prop where
  buf : t.buf = image
  iEndIndex : t.iEndIndex = (start image commands).iEndIndex
  iTotalIndex : t.iTotalIndex = (start image commands).iTotalIndex
  iLastPacketLen : t.iLastPacketLen = (start image commands).iLastPacketLen
  bufpatch : t.bufpatch = if i ≤ lastPiece image then some (252 * i) else t.bufpatch
  iCurIndex : t.iCurIndex.toNat = if i ≤ lastPacket image commands then i else 128 + i

/-- The next packet is the packet `i`, and its bytes are in the image. -/
lemma next_due {t : Transfer} (h : Planned image commands) (hi : i < 128)
    (ht : Due image commands i t) :
    t.next.1 = sent image commands i ∧ t.next.1.read t.next.2 = some (piece 252 image i) := by
  obtain ⟨hle, hsum, -⟩ := lastPacket_bounds h
  have hleast := h.least
  have hcur := ht.iCurIndex
  have hend : t.iEndIndex.toNat = lastPiece image := ht.iEndIndex ▸ iEndIndex_start h
  have htotal : t.iTotalIndex.toNat = lastPacket image commands :=
    ht.iTotalIndex ▸ iTotalIndex_start h
  have hindex := toNat_indexByte image commands hi
  have hlast : t.iLastPacketLen.toNat = image.length - 252 * lastPiece image :=
    ht.iLastPacketLen ▸ iLastPacketLen_start h
  have hsent : ∀ {index : UInt8} {patch : Option ℕ}, index.toNat =
      (indexByte image commands i).toNat →
      patch = (if i ≤ lastPiece image then some (252 * i) else none) →
      { t with iCurIndex := index, bufpatch := patch } = sent image commands i := by
    intro index patch hidx hpatch
    rw [sent, ← UInt8.toNat_inj.mp hidx, ← hpatch]
    show (⟨t.buf, patch, index, t.iEndIndex, t.iLastPacketLen, t.iTotalIndex⟩ : Transfer) = _
    rw [ht.buf, ht.iEndIndex, ht.iLastPacketLen, ht.iTotalIndex]
    rfl
  unfold next
  by_cases hlt : i < lastPiece image
  · -- a full piece
    rw [if_pos (show i ≤ lastPacket image commands by omega)] at hcur
    rw [if_pos (show t.iCurIndex < t.iEndIndex by rw [UInt8.lt_iff_toNat_lt]; omega)]
    have hpatch := ht.bufpatch
    rw [if_pos (Nat.le_of_lt hlt)] at hpatch
    constructor
    · refine hsent ?_ (by rw [if_pos (Nat.le_of_lt hlt)]; exact hpatch)
      rw [toNat_and_7F, hcur, hindex, if_pos (by omega)]
      omega
    · simp only [read, hpatch, ht.buf]
      exact fetch_piece h (Nat.le_of_lt hlt) _ (by rw [if_pos hlt]; rfl)
  · rw [if_neg (show ¬ t.iCurIndex < t.iEndIndex by
      rw [UInt8.lt_iff_toNat_lt, hcur]
      split_ifs <;> omega)]
    by_cases heq : i = lastPiece image
    · -- the last piece, in the last packet or in front of it
      rw [if_pos (show i ≤ lastPacket image commands by omega)] at hcur
      rw [if_pos (show t.iCurIndex = t.iEndIndex by rw [← UInt8.toNat_inj]; omega)]
      have hpatch := ht.bufpatch
      rw [if_pos (Nat.le_of_eq heq)] at hpatch
      have hread : ∀ index, { t with iCurIndex := index }.read t.iLastPacketLen =
          some (piece 252 image i) := by
        intro index
        simp only [read, hpatch, ht.buf]
        exact fetch_piece h (Nat.le_of_eq heq) _ (by rw [if_neg hlt, hlast])
      split_ifs with hfinal
      · rw [← UInt8.toNat_inj, hcur, htotal] at hfinal
        refine ⟨hsent ?_ (by rw [if_pos (Nat.le_of_eq heq)]; exact hpatch), hread _⟩
        rw [toNat_or_80, hcur, hindex, if_pos (by omega), if_neg (by omega), Nat.add_comm]
      · rw [← UInt8.toNat_inj, hcur, htotal] at hfinal
        refine ⟨hsent ?_ (by rw [if_pos (Nat.le_of_eq heq)]; exact hpatch), hread _⟩
        rw [toNat_and_7F, hcur, hindex, if_pos (by omega)]
        omega
    · -- a packet without data
      have hbehind : lastPiece image < i := by omega
      rw [if_neg (show ¬ t.iCurIndex = t.iEndIndex by
        rw [← UInt8.toNat_inj, hcur]
        split_ifs <;> omega)]
      have hread : ∀ index, { t with iCurIndex := index, bufpatch := none }.read 0 =
          some (piece 252 image i) := by
        intro index
        rw [piece_behind h hbehind]
        rfl
      split_ifs with hfinal
      · rw [UInt8.lt_iff_toNat_lt, hcur, htotal] at hfinal
        have hlow : i < lastPacket image commands := by
          split_ifs at hfinal <;> omega
        rw [if_pos (Nat.le_of_lt hlow)] at hcur
        refine ⟨hsent ?_ (by rw [if_neg (by omega)]), hread _⟩
        rw [toNat_and_7F, hcur, hindex, if_pos hlow]
        omega
      · rw [UInt8.lt_iff_toNat_lt, hcur, htotal] at hfinal
        have hhigh : lastPacket image commands ≤ i := by
          split_ifs at hfinal <;> omega
        refine ⟨hsent ?_ (by rw [if_neg (by omega)]), hread _⟩
        rw [toNat_or_80, hcur, hindex]
        split_ifs <;> omega

lemma due_start :
    Due image commands 0 (start image commands) where
  buf := rfl
  iEndIndex := rfl
  iTotalIndex := rfl
  iLastPacketLen := rfl
  bufpatch := (if_pos (Nat.zero_le _)).symm
  iCurIndex := (if_pos (Nat.zero_le _)).symm

lemma due_acked (h : Planned image commands) (hi : i < 127) :
    Due image commands (i + 1) (sent image commands i).acked := by
  obtain ⟨hle, hsum, -⟩ := lastPacket_bounds h
  have hindex := toNat_indexByte image commands (show i < 128 by omega)
  have hleast := h.least
  have hend := iEndIndex_start h
  refine ⟨rfl, rfl, rfl, rfl, ?_, ?_⟩
  · by_cases hlt : i + 1 ≤ lastPiece image
    · have hbefore : (sent image commands i).iCurIndex < (sent image commands i).iEndIndex := by
        rw [UInt8.lt_iff_toNat_lt]
        show (indexByte image commands i).toNat < (start image commands).iEndIndex.toNat
        rw [hindex, hend, if_pos (by omega)]
        omega
      simp only [acked, if_pos hbefore, if_pos hlt]
      simp only [sent, if_pos (show i ≤ lastPiece image by omega), Option.map_some,
        patchDataFieldMaxSize, Nat.mul_succ]
    · rw [if_neg hlt]
  · show (indexByte image commands i + 1).toNat = _
    rw [toNat_add_one, hindex]
    split_ifs <;> omega

/-- Behind 128 packets the index starts again, without an image. -/
lemma next_acked_last (h : Planned image commands) :
    (sent image commands 127).acked.next.1.read (sent image commands 127).acked.next.2 = none := by
  obtain ⟨hle, hsum, -⟩ := lastPacket_bounds h
  have hindex := toNat_indexByte image commands (show 127 < 128 by omega)
  have hleast := h.least
  have hend := iEndIndex_start h
  have htotal := iTotalIndex_start h
  have hlen := iLastPacketLen_start h
  rw [if_neg (by omega)] at hindex
  have hcur : (sent image commands 127).acked.iCurIndex = 0 := by
    rw [← UInt8.toNat_inj]
    show (indexByte image commands 127 + 1).toNat = 0
    rw [toNat_add_one, hindex]
  have hpatch : (sent image commands 127).acked.bufpatch = none := by
    have hnull : (sent image commands 127).bufpatch = none := if_neg (by omega)
    simp only [acked, hnull, Option.map_none, ite_self]
  have hread : ∀ (index len : UInt8), len.toNat ≠ 0 →
      { (sent image commands 127).acked with iCurIndex := index }.read len = none := by
    intro index len hne
    simp only [read, hpatch]
    exact if_neg fun h0 => hne (by rw [h0]; rfl)
  have hend' : (sent image commands 127).acked.iEndIndex = (start image commands).iEndIndex := rfl
  have htotal' : (sent image commands 127).acked.iTotalIndex = (start image commands).iTotalIndex :=
    rfl
  have hlast' : (sent image commands 127).acked.iLastPacketLen =
    (start image commands).iLastPacketLen := rfl
  unfold next
  rw [hcur, hend', htotal', hlast']
  by_cases hzero : lastPiece image = 0
  · have h0 : (start image commands).iEndIndex = 0 := by
      rw [← UInt8.toNat_inj, hend, hzero]
      rfl
    have hpos := (length_bounds h).1
    rw [h0, if_neg (by decide), if_pos rfl]
    have hne : (start image commands).iLastPacketLen.toNat ≠ 0 := by omega
    split_ifs
    · exact hread (0 ||| 0x80) _ hne
    · exact hread (0 &&& 0x7F) _ hne
  · rw [if_pos]
    · exact hread (0 &&& 0x7F) (UInt8.ofNat patchDataFieldMaxSize) (by decide)
    · rw [UInt8.lt_iff_toNat_lt, hend]
      exact Nat.pos_of_ne_zero hzero

end Transfer

end Softwinner.Bluetooth
