import Mathlib.Data.List.Basic

/-!
# Byte files

A regular file is a list of bytes; an open descriptor adds a position.
`slice`, `overwrite` and `resize` say what a positioned read, a positioned
write and a truncation do to the bytes, and the descriptor operations after a
seek are shown to do just that.
-/

namespace FuseDrive

/-- `bytes[offset:offset + length]`. -/
def slice {β : Type} (bytes : List β) (offset length : Nat) : List β :=
  (bytes.drop offset).take length

section Slices

variable {β : Type}

@[simp] theorem slice_zero (bytes : List β) (offset : Nat) : slice bytes offset 0 = [] := by
  simp [slice]

@[simp] theorem slice_length_self (bytes : List β) : slice bytes 0 bytes.length = bytes := by
  simp [slice]

theorem mem_of_mem_slice {bytes : List β} {offset length : Nat} {byte : β}
    (member : byte ∈ slice bytes offset length) : byte ∈ bytes :=
  List.mem_of_mem_drop (List.mem_of_mem_take member)

theorem slice_of_length_le {bytes : List β} {offset : Nat}
    (past : bytes.length ≤ offset) (length : Nat) : slice bytes offset length = [] := by
  simp [slice, List.drop_eq_nil_of_le past]

theorem slice_append_slice (bytes : List β) (offset first second : Nat) :
    slice bytes offset first ++ slice bytes (offset + first) second =
      slice bytes offset (first + second) := by
  simp [slice, List.take_add, List.drop_drop]

theorem slice_slice {bytes : List β} {offset length start count : Nat}
    (inside : start + count ≤ length) :
    slice (slice bytes offset length) start count = slice bytes (offset + start) count := by
  simp only [slice, List.drop_take, List.drop_drop, List.take_take]
  congr 1
  omega

end Slices

abbrev Bytes := List UInt8

namespace Bytes

/-- Cut or fill with zeros to `length` bytes. -/
def resize (bytes : Bytes) (length : Nat) : Bytes :=
  bytes.take length ++ List.replicate (length - bytes.length) 0

/-- Put `data` at `offset`, filling a gap before it with zeros; an empty
`data` changes nothing. -/
def overwrite (bytes : Bytes) (offset : Nat) (data : Bytes) : Bytes :=
  if data = [] then bytes
  else bytes.resize offset ++ data ++ bytes.drop (offset + data.length)

@[simp] theorem length_resize (bytes : Bytes) (length : Nat) :
    (bytes.resize length).length = length := by
  simp only [resize, List.length_append, List.length_take, List.length_replicate]
  omega

theorem overwrite_take_slice (bytes : Bytes) (offset length : Nat) :
    overwrite (bytes.take offset) offset (slice bytes offset length) =
      bytes.take (offset + (slice bytes offset length).length) := by
  by_cases inside : offset ≤ bytes.length
  · have copied : (bytes.take offset).length = offset := by simp [inside]
    have resized : resize (bytes.take offset) offset = bytes.take offset := by
      simp [resize, copied, List.take_take]
    have nothingLeft (count : Nat) : (bytes.take offset).drop (offset + count) = [] :=
      List.drop_eq_nil_of_le (by omega)
    unfold overwrite
    split
    · rename_i nothing
      simp [nothing]
    · rw [resized, nothingLeft, List.append_nil, List.take_add]
      congr 1
      rw [slice, List.length_take, ← List.take_eq_take_min]
  · have nothing : slice bytes offset length = [] := slice_of_length_le (by omega) length
    simp [overwrite, nothing]

theorem overwrite_empty_file (data : Bytes) : overwrite [] 0 data = data := by
  unfold overwrite
  split
  · exact ‹data = []›.symm
  · simp [resize]

end Bytes

/-- An open file: its bytes and the position of its descriptor. -/
structure TempFile where
  bytes : Bytes
  position : Nat
deriving DecidableEq

namespace TempFile

/-- `os.lseek(fd, offset, os.SEEK_SET)`. -/
def lseek (file : TempFile) (offset : Nat) : TempFile :=
  { file with position := offset }

/-- `os.write(fd, data)` accepting the whole buffer. -/
def write (file : TempFile) (data : Bytes) : TempFile :=
  { bytes := file.bytes.overwrite file.position data
    position := file.position + data.length }

/-- `os.read(fd, length)`. -/
def read (file : TempFile) (length : Nat) : Bytes × TempFile :=
  let data := slice file.bytes file.position length
  (data, { file with position := file.position + data.length })

/-- `os.ftruncate(fd, length)`. -/
def ftruncate (file : TempFile) (length : Nat) : TempFile :=
  { file with bytes := file.bytes.resize length }

/-- The file `tempfile.mkstemp` opens. -/
def mkstemp : TempFile := ⟨[], 0⟩

@[simp] theorem lseek_write_bytes (file : TempFile) (offset : Nat) (data : Bytes) :
    ((file.lseek offset).write data).bytes = file.bytes.overwrite offset data := rfl

@[simp] theorem lseek_read_fst (file : TempFile) (offset length : Nat) :
    ((file.lseek offset).read length).1 = slice file.bytes offset length := rfl

@[simp] theorem lseek_read_bytes (file : TempFile) (offset length : Nat) :
    ((file.lseek offset).read length).2.bytes = file.bytes := rfl

@[simp] theorem ftruncate_bytes (file : TempFile) (length : Nat) :
    (file.ftruncate length).bytes = file.bytes.resize length := rfl

@[simp] theorem mkstemp_write_bytes (data : Bytes) : (mkstemp.write data).bytes = data :=
  Bytes.overwrite_empty_file data

end TempFile

end FuseDrive
