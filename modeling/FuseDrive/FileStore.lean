import FuseDrive.ByteFile
import FuseDrive.Dict
import Mathlib.Logic.Function.Basic

/-!
# Named files and descriptors

Names lead to files and so do descriptors, which have a position of their own.
Removing a name leaves the file to the descriptors that are open on it.
-/

namespace FuseDrive

structure Descriptor where
  file : Nat
  position : Nat := 0
  isWritable : Bool
deriving DecidableEq

/-- Files are numbered in the order of their creation. -/
structure FileStore (ν : Type) where
  names : Dict ν Nat := ∅
  contents : Nat → Bytes := fun _ => []
  created : Nat := 0
  descriptors : Dict Nat Descriptor := ∅

namespace FileStore

/-! ## Descriptors -/

section Descriptors

variable {ν : Type} (store : FileStore ν)

def setDescriptor (fd : Nat) (descriptor : Descriptor) : FileStore ν :=
  { store with descriptors := store.descriptors.insert fd descriptor }

def close (fd : Nat) : Option (FileStore ν) :=
  (store.descriptors.lookup fd).map fun _ =>
    { store with descriptors := store.descriptors.erase fd }

/-- `os.lseek(fd, offset, os.SEEK_SET)`. -/
def lseek (fd offset : Nat) : Option (FileStore ν) :=
  (store.descriptors.lookup fd).map fun descriptor =>
    store.setDescriptor fd { descriptor with position := offset }

def read (fd length : Nat) : Option (Bytes × FileStore ν) :=
  (store.descriptors.lookup fd).map fun descriptor =>
    let (data, file) := (TempFile.mk (store.contents descriptor.file) descriptor.position).read
      length
    (data, store.setDescriptor fd { descriptor with position := file.position })

def write (fd : Nat) (data : Bytes) : Option (FileStore ν) :=
  (store.descriptors.lookup fd).bind fun descriptor =>
    if descriptor.isWritable then
      let file := (TempFile.mk (store.contents descriptor.file) descriptor.position).write data
      some ({ store with
        contents := Function.update store.contents descriptor.file file.bytes }.setDescriptor fd
          { descriptor with position := file.position })
    else none

variable {store}

/-- Names and descriptors lead where they led. -/
structure Leads (before after : FileStore ν) : Prop where
  names : after.names = before.names
  created : after.created = before.created
  descriptors : ∀ fd,
    (after.descriptors.lookup fd).map (fun descriptor => (descriptor.file, descriptor.isWritable)) =
      (before.descriptors.lookup fd).map fun descriptor => (descriptor.file, descriptor.isWritable)

theorem lookup_position {fd : Nat} {descriptor : Descriptor} {descriptors : Dict Nat Descriptor}
    (present : descriptors.lookup fd = some descriptor) (first second other : Nat) :
    (((descriptors.insert fd { descriptor with position := first }).insert fd
        { descriptor with position := second }).lookup other).map
          (fun descriptor => (descriptor.file, descriptor.isWritable)) =
      (descriptors.lookup other).map fun descriptor => (descriptor.file, descriptor.isWritable) := by
  simp only [Dict.lookup_insert_eq]
  split
  · rename_i same
    rw [same, present]
    rfl
  · rfl

theorem lseek_eq {fd : Nat} {descriptor : Descriptor}
    (present : store.descriptors.lookup fd = some descriptor) (offset : Nat) :
    store.lseek fd offset =
      some (store.setDescriptor fd { descriptor with position := offset }) := by
  rw [lseek, present]
  rfl

theorem read_at {fd : Nat} {descriptor : Descriptor}
    (present : store.descriptors.lookup fd = some descriptor) (offset length : Nat) :
    ∃ sought next, store.lseek fd offset = some sought ∧
      sought.read fd length = some (slice (store.contents descriptor.file) offset length, next) ∧
      next.contents = store.contents ∧ Leads store next := by
  let position := offset + (slice (store.contents descriptor.file) offset length).length
  refine ⟨_, (store.setDescriptor fd { descriptor with position := offset }).setDescriptor fd
    { descriptor with position }, lseek_eq present offset, ?_, rfl, rfl, rfl,
    lookup_position present offset position⟩
  simp only [read, setDescriptor, AList.lookup_insert, Option.map_some]
  rfl

theorem write_at {fd : Nat} {descriptor : Descriptor}
    (present : store.descriptors.lookup fd = some descriptor)
    (isWritable : descriptor.isWritable = true) (offset : Nat) (data : Bytes) :
    ∃ sought next, store.lseek fd offset = some sought ∧ sought.write fd data = some next ∧
      next.contents = Function.update store.contents descriptor.file
        ((store.contents descriptor.file).overwrite offset data) ∧ Leads store next := by
  let written := { store with
    contents := Function.update store.contents descriptor.file
      ((store.contents descriptor.file).overwrite offset data) }
  let position := offset + data.length
  refine ⟨_, (written.setDescriptor fd { descriptor with position := offset }).setDescriptor fd
    { descriptor with position }, lseek_eq present offset, ?_, rfl, rfl, rfl,
    lookup_position present offset position⟩
  simp only [write, setDescriptor, AList.lookup_insert, Option.bind_some, isWritable, if_true]
  rfl

/-! ## What is there -/

/-- The same names, and the same descriptors are open. -/
structure Holds (before after : FileStore ν) : Prop where
  names : after.names = before.names
  descriptors : after.descriptors.keys.Perm before.descriptors.keys

theorem Holds.trans {first second third : FileStore ν} (one : Holds first second)
    (other : Holds second third) : Holds first third :=
  ⟨other.names.trans one.names, other.descriptors.trans one.descriptors⟩

theorem lseek_holds {fd offset : Nat} {next : FileStore ν}
    (sought : store.lseek fd offset = some next) : Holds store next := by
  obtain ⟨descriptor, present, rfl⟩ := Option.map_eq_some_iff.mp sought
  exact ⟨rfl, Dict.keys_insert_perm present _⟩

theorem read_holds {fd length : Nat} {data : Bytes} {next : FileStore ν}
    (isRead : store.read fd length = some (data, next)) : Holds store next := by
  obtain ⟨descriptor, present, same⟩ := Option.map_eq_some_iff.mp isRead
  cases same
  exact ⟨rfl, Dict.keys_insert_perm present _⟩

theorem write_holds {fd : Nat} {data : Bytes} {next : FileStore ν}
    (written : store.write fd data = some next) : Holds store next := by
  obtain ⟨descriptor, present, rest⟩ := Option.bind_eq_some_iff.mp written
  split at rest
  · cases rest
    exact ⟨rfl, Dict.keys_insert_perm present _⟩
  · cases rest

end Descriptors

/-! ## Names -/

section Names

variable {ν : Type} [DecidableEq ν] (store : FileStore ν)

/-- A new file of a name and a descriptor that are not in use. -/
def mkstemp (name : ν) (fd : Nat) : FileStore ν :=
  { store with
    names := store.names.insert name store.created
    contents := Function.update store.contents store.created []
    created := store.created + 1
    descriptors := store.descriptors.insert fd ⟨store.created, 0, true⟩ }

/-- A descriptor that is not in use, for the file of a name. -/
def openName (name : ν) (isWritable : Bool) (fd : Nat) : Option (FileStore ν) :=
  (store.names.lookup name).map fun file => store.setDescriptor fd ⟨file, 0, isWritable⟩

/-- `os.truncate(name, length)`. -/
def truncate (name : ν) (length : Nat) : Option (FileStore ν) :=
  (store.names.lookup name).map fun file =>
    { store with
      contents := Function.update store.contents file ((store.contents file).resize length) }

def remove (name : ν) : Option (FileStore ν) :=
  (store.names.lookup name).map fun _ => { store with names := store.names.erase name }

/-- `os.stat(name).st_size`. -/
def size (name : ν) : Option Nat :=
  (store.names.lookup name).map fun file => (store.contents file).length

/-- The whole file of a name. -/
def readWhole (name : ν) : Option Bytes :=
  (store.names.lookup name).map store.contents

variable {store} in
theorem truncate_holds {name : ν} {length : Nat} {next : FileStore ν}
    (truncated : store.truncate name length = some next) : Holds store next := by
  obtain ⟨file, -, rfl⟩ := Option.map_eq_some_iff.mp truncated
  exact ⟨rfl, List.Perm.refl _⟩

end Names

end FileStore

end FuseDrive
