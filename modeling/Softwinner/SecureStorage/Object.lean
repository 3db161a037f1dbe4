import Softwinner.SecureStorage.Flash

/-!
# The secure object format

`store_object_t` and the two functions between a payload and its 4096-byte block,
`wrap_secure_object` and `unwrap_secure_object`.  The fields lie at

| offset | field | offset | field |
| --- | --- | --- | --- |
| 0 | `magic` | 80 | `write_protect` |
| 4 | `id` | 84 | `reserved[3]` |
| 8 | `name[64]` | 96 | `actual_len` |
| 72 | `re_encrypt` | 100 | `data[0xc00]` |
| 76 | `version` | 3172 | `crc` |

`wrapSecureObject` stores the fields into the caller's buffer in the source's order, so what
it does not store (the second half of `reserved`, the unused part of `data`, everything
behind `crc`) is the caller's.  The layers above use that a wrapped object passes its check
(`checkSecureStorageKey_wrap`) and has its payload in it (`slice_wrap_data`).
-/

namespace Softwinner.SecureStorage

open Framework

def maxStoreLen : ℕ := 0xc00
def sunxiSecstoreVersion : ℕ := 1

variable (crc32 : Bytes → UInt32)

/-- Everything of a wrapped object in front of its `crc`. -/
def objectBody (src name tagt : Bytes) : Bytes :=
  le32 storeObjectMagic ++ le32 0 ++ strncpy name 64 ++ le32 0 ++ le32 sunxiSecstoreVersion ++
    le32 0 ++ zeros 4 ++ slice tagt 88 8 ++ le32 src.length ++ src ++
    slice tagt (100 + src.length) (maxStoreLen - src.length)

/-- `src` is the payload, that is the `len` bytes the caller passed; `none` is `-1`.  On
success `retLen` is always `storeObjectSize`. -/
def wrapSecureObject (src name tagt : Bytes) : Option Bytes :=
  if src.length > maxStoreLen then none
  else
    let body := objectBody src name tagt
    some (body ++ le32 (crc32 body).toNat ++ tagt.drop storeObjectSize)

/-- What a read leaves its caller: the return code, the caller's buffer and `*data_len`. -/
structure ReadOut where
  ret : ℤ
  buffer : Bytes
  dataLen : ℤ
  deriving DecidableEq

/-- `len` is the length of the object in `src`; `payload` and `retLen` are the caller's.
`none` when the copy of `actual_len` bytes leaves one of the two buffers. -/
def unwrapSecureObject (src : Bytes) (len : ℤ) (payload : Bytes) (retLen : ℤ) :
    Option ReadOut :=
  if len ≠ storeObjectSize then some ⟨-1, payload, retLen⟩
  else if u32 src 0 ≠ storeObjectMagic then some ⟨-1, payload, retLen⟩
  else if u32 src 3172 ≠ (crc32 (src.take 3172)).toNat then some ⟨-1, payload, retLen⟩
  else
    let actualLen := u32 src 96
    if 100 + actualLen ≤ src.length ∧ actualLen ≤ payload.length then
      some ⟨0, patch payload 0 (slice src 100 actualLen), actualLen⟩
    else none

/-! ## Layout of a wrapped object -/

section Layout

variable {crc32} {src name tagt block : Bytes}

lemma length_objectBody (hsrc : src.length ≤ maxStoreLen) (htagt : tagt.length = secBlkSize) :
    (objectBody src name tagt).length = 3172 := by
  have hmax : maxStoreLen = 3072 := rfl
  have hblk : secBlkSize = 4096 := rfl
  simp only [objectBody, List.length_append, length_le32, length_strncpy, length_zeros]
  rw [length_slice (by omega), length_slice (by omega)]
  omega

lemma wrapSecureObject_eq (h : wrapSecureObject crc32 src name tagt = some block) :
    src.length ≤ maxStoreLen ∧
      block = objectBody src name tagt ++ le32 (crc32 (objectBody src name tagt)).toNat ++
        tagt.drop storeObjectSize := by
  unfold wrapSecureObject at h
  split_ifs at h with hlen
  injection h with h
  exact ⟨by omega, h.symm⟩

lemma length_wrap (htagt : tagt.length = secBlkSize)
    (h : wrapSecureObject crc32 src name tagt = some block) : block.length = secBlkSize := by
  obtain ⟨hlen, rfl⟩ := wrapSecureObject_eq h
  have hblk : secBlkSize = 4096 := rfl
  have hobj : storeObjectSize = 3176 := rfl
  simp only [List.length_append, length_objectBody hlen htagt, length_le32, List.length_drop]
  omega

lemma take_wrap (htagt : tagt.length = secBlkSize)
    (h : wrapSecureObject crc32 src name tagt = some block) :
    block.take 3172 = objectBody src name tagt := by
  obtain ⟨hlen, rfl⟩ := wrapSecureObject_eq h
  have hbody : (objectBody src name tagt).length = 3172 := length_objectBody hlen htagt
  rw [List.append_assoc, List.take_append_of_le_length (by omega), ← hbody, List.take_length]

lemma u32_wrap_crc (htagt : tagt.length = secBlkSize)
    (h : wrapSecureObject crc32 src name tagt = some block) :
    u32 block 3172 = (crc32 (objectBody src name tagt)).toNat := by
  obtain ⟨hlen, rfl⟩ := wrapSecureObject_eq h
  exact u32_append_le32 (length_objectBody hlen htagt) (UInt32.toNat_lt _)

lemma u32_wrap_magic (h : wrapSecureObject crc32 src name tagt = some block) :
    u32 block 0 = storeObjectMagic := by
  obtain ⟨-, rfl⟩ := wrapSecureObject_eq h
  have hform : ∃ post : Bytes, objectBody src name tagt ++
      le32 (crc32 (objectBody src name tagt)).toNat ++ tagt.drop storeObjectSize =
      [] ++ le32 storeObjectMagic ++ post := by
    simp only [objectBody, List.append_assoc, List.nil_append, List.append_cancel_left_eq,
      exists_eq']
  obtain ⟨post, hpost⟩ := hform
  rw [hpost]
  exact u32_append_le32 rfl (by decide)

/-- The payload and its length, seen from the whole block. -/
lemma exists_wrap_data (htagt : tagt.length = secBlkSize)
    (h : wrapSecureObject crc32 src name tagt = some block) :
    ∃ pre post : Bytes, pre.length = 96 ∧ block = pre ++ le32 src.length ++ (src ++ post) := by
  obtain ⟨-, rfl⟩ := wrapSecureObject_eq h
  have hblk : secBlkSize = 4096 := rfl
  refine ⟨le32 storeObjectMagic ++ le32 0 ++ strncpy name 64 ++ le32 0 ++
    le32 sunxiSecstoreVersion ++ le32 0 ++ zeros 4 ++ slice tagt 88 8,
    slice tagt (100 + src.length) (maxStoreLen - src.length) ++
      (le32 (crc32 (objectBody src name tagt)).toNat ++ tagt.drop storeObjectSize), ?_, ?_⟩
  · simp only [List.length_append, length_le32, length_strncpy, length_zeros]
    rw [length_slice (by omega)]
  · simp only [objectBody, List.append_assoc]

lemma u32_wrap_actualLen (htagt : tagt.length = secBlkSize)
    (h : wrapSecureObject crc32 src name tagt = some block) : u32 block 96 = src.length := by
  have hlen := (wrapSecureObject_eq h).1
  have hmax : maxStoreLen = 3072 := rfl
  obtain ⟨pre, post, hpre, rfl⟩ := exists_wrap_data htagt h
  exact u32_append_le32 hpre (by omega)

lemma slice_wrap_data (htagt : tagt.length = secBlkSize)
    (h : wrapSecureObject crc32 src name tagt = some block) :
    slice block 100 src.length = src := by
  obtain ⟨pre, post, hpre, rfl⟩ := exists_wrap_data htagt h
  unfold slice
  rw [List.drop_append_of_le_length (by simp [hpre]), List.drop_eq_nil_of_le (by simp [hpre]),
    List.nil_append, List.take_left]

/-- A wrapped object passes its check. -/
lemma checkSecureStorageKey_wrap (htagt : tagt.length = secBlkSize)
    (h : wrapSecureObject crc32 src name tagt = some block) :
    checkSecureStorageKey crc32 block = 0 := by
  rw [checkSecureStorageKey, u32_wrap_magic h, u32_wrap_crc htagt h, take_wrap htagt h]
  simp

end Layout

end Softwinner.SecureStorage
