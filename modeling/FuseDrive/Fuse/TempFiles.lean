import FuseDrive.Fuse.LocalFiles

/-!
# What the local-only files leave on disk

Each local-only file has a temporary file, and each of its handles a
descriptor.  Handles give their descriptors back.  A path that is created or
renamed over another one displaces the temporary file of the other, and nothing
removes it afterwards: these are the files that stay.
-/

namespace FuseDrive.Fuse.LocalFiles

/-- The temporary file that a call takes the path from. -/
def displaced (state : LocalFiles) : LocalCall → List Str
  | .create path _ _ => (state.localOnlyFiles.lookup path).toList
  | .rename old new => ((state.localOnlyFiles.erase old).lookup new).toList
  | _ => []

/-- The temporary files are those of the paths and the displaced ones, and the
descriptors are those of the handles. -/
structure Accounted (state : LocalFiles) (lost : List Str) : Prop where
  temps : state.os.names.keys.Perm (Dict.values state.localOnlyFiles ++ lost)
  descriptors : state.os.descriptors.keys.Perm
    ((Dict.values state.openFiles).map LocalHandle.tempFd)
  numbered : ∀ fd ∈ state.openFiles, fd < state.nextFd

theorem Accounted.initial : Accounted {} [] where
  temps := .refl _
  descriptors := .refl _
  numbered _ member := absurd member (AList.notMem_empty _)

section Accounted

variable {state next : LocalFiles} {lost : List Str} {given : LocalAnswer}

theorem Accounted.holds (accounted : Accounted state lost) {os : FileStore Str}
    (holds : FileStore.Holds state.os os) : Accounted { state with os } lost where
  temps := holds.names ▸ accounted.temps
  descriptors := holds.descriptors.trans accounted.descriptors
  numbered := accounted.numbered

theorem Accounted.addHandle (accounted : Accounted state lost) (handle : LocalHandle)
    {descriptor : Descriptor} (fresh : state.os.descriptors.lookup handle.tempFd = none) :
    Accounted
      { state with
        openFiles := state.openFiles.insert state.nextFd handle
        nextFd := state.nextFd + 1
        os := state.os.setDescriptor handle.tempFd descriptor } lost where
  temps := accounted.temps
  descriptors := by
    have unused : state.openFiles.lookup state.nextFd = none :=
      AList.lookup_eq_none.mpr fun member => (accounted.numbered _ member).ne rfl
    change (state.os.descriptors.insert handle.tempFd descriptor).keys.Perm _
    rw [Dict.keys_insert_of_absent fresh]
    exact (accounted.descriptors.cons handle.tempFd).trans
      ((Dict.values_insert_of_absent unused handle).map LocalHandle.tempFd)
  numbered fd member := by
    rcases (AList.mem_insert _).mp member with rfl | earlier
    · exact Nat.lt_succ_self _
    · exact Nat.lt_succ_of_lt (accounted.numbered fd earlier)

theorem Accounted.insert_temps {names : List Str} {temps : Dict Str Str} {temp : Str}
    (split : names.Perm (temp :: Dict.values temps ++ lost)) (path : Str) :
    names.Perm (Dict.values (temps.insert path temp) ++
      (lost ++ (temps.lookup path).toList)) := by
  have moved := (Dict.values_insert_perm temps path temp).append_right lost
  rw [List.append_assoc] at moved
  exact (split.trans moved).trans (List.perm_append_comm.append_left _)

theorem Accounted.create (accounted : Accounted state lost) {path temp : Str} {tempFd : Nat}
    (fresh : state.Fresh (.create path temp tempFd)) :
    Accounted (state.create path temp tempFd).2
      (lost ++ state.displaced (.create path temp tempFd)) := by
  have filed : Accounted
      { state with
        localOnlyFiles := state.localOnlyFiles.insert path temp
        os := { state.os with
          names := state.os.names.insert temp state.os.created
          contents := Function.update state.os.contents state.os.created []
          created := state.os.created + 1 } }
      (lost ++ state.displaced (.create path temp tempFd)) := by
    refine ⟨?_, accounted.descriptors, accounted.numbered⟩
    change (state.os.names.insert temp state.os.created).keys.Perm _
    rw [Dict.keys_insert_of_absent fresh.1]
    exact Accounted.insert_temps (accounted.temps.cons temp) path
  exact filed.addHandle ⟨tempFd, true⟩ fresh.2

theorem Accounted.rename (accounted : Accounted state lost) {old new : Str}
    (taken : state.rename old new = some (given, next)) :
    Accounted next (lost ++ state.displaced (.rename old new)) := by
  obtain ⟨temp, isTemp, same⟩ := Option.bind_eq_some_iff.mp taken
  cases same
  refine ⟨?_, accounted.descriptors, accounted.numbered⟩
  have split := (Dict.values_erase_perm isTemp).append_right lost
  exact Accounted.insert_temps (accounted.temps.trans split) new

theorem Accounted.unlink (accounted : Accounted state lost) {path : Str}
    (taken : state.unlink path = some (given, next)) : Accounted next lost := by
  obtain ⟨temp, isTemp, same⟩ := Option.bind_eq_some_iff.mp taken
  cases same
  have split := accounted.temps.trans ((Dict.values_erase_perm isTemp).append_right lost)
  have isName : temp ∈ state.os.names :=
    AList.mem_keys.mpr (split.mem_iff.mpr List.mem_cons_self)
  obtain ⟨file, isFile⟩ := Option.isSome_iff_exists.mp (AList.lookup_isSome.mpr isName)
  have removed : state.os.remove temp =
      some { state.os with names := state.os.names.erase temp } := by
    rw [FileStore.remove, isFile, Option.map_some]
  simp only [removed, Option.getD_some]
  refine ⟨?_, accounted.descriptors, accounted.numbered⟩
  exact Dict.keys_erase_perm split

theorem Accounted.release (accounted : Accounted state lost) {fd : Nat}
    (taken : state.release fd = some (given, next)) : Accounted next lost := by
  obtain ⟨handle, isHandle, rest⟩ := Option.bind_eq_some_iff.mp taken
  obtain ⟨os, isClosed, same⟩ := Option.bind_eq_some_iff.mp rest
  obtain ⟨descriptor, -, rfl⟩ := Option.map_eq_some_iff.mp isClosed
  cases same
  have split := accounted.descriptors.trans
    ((Dict.values_erase_perm isHandle).map LocalHandle.tempFd)
  exact ⟨accounted.temps, Dict.keys_erase_perm split,
    fun fd member => accounted.numbered fd (AList.mem_erase.mp member).2⟩

theorem Accounted.openFile (accounted : Accounted state lost) {path : Str} {flags tempFd : Nat}
    (fresh : state.os.descriptors.lookup tempFd = none)
    (taken : state.openFile path flags tempFd = some (given, next)) : Accounted next lost := by
  obtain ⟨temp, -, rest⟩ := Option.bind_eq_some_iff.mp taken
  obtain ⟨os, isOpen, same⟩ := Option.bind_eq_some_iff.mp rest
  obtain ⟨file, -, rfl⟩ := Option.map_eq_some_iff.mp isOpen
  cases same
  exact accounted.addHandle ⟨tempFd, Unrouted.writes flags⟩ fresh

theorem Accounted.read (accounted : Accounted state lost) {length offset fd : Nat}
    (taken : state.read length offset fd = some (given, next)) : Accounted next lost := by
  obtain ⟨handle, -, rest⟩ := Option.bind_eq_some_iff.mp taken
  obtain ⟨sought, seeks, rest⟩ := Option.bind_eq_some_iff.mp rest
  obtain ⟨⟨data, os⟩, reads, same⟩ := Option.bind_eq_some_iff.mp rest
  cases same
  exact accounted.holds ((FileStore.lseek_holds seeks).trans (FileStore.read_holds reads))

theorem Accounted.write (accounted : Accounted state lost) {data : Bytes} {offset fd : Nat}
    (taken : state.write data offset fd = some (given, next)) : Accounted next lost := by
  obtain ⟨handle, -, rest⟩ := Option.bind_eq_some_iff.mp taken
  split at rest
  · obtain ⟨sought, seeks, rest⟩ := Option.bind_eq_some_iff.mp rest
    obtain ⟨os, writes, same⟩ := Option.bind_eq_some_iff.mp rest
    cases same
    exact accounted.holds ((FileStore.lseek_holds seeks).trans (FileStore.write_holds writes))
  · cases rest
    exact accounted

theorem Accounted.truncate (accounted : Accounted state lost) {path : Str} {length : Nat}
    (taken : state.truncate path length = some (given, next)) : Accounted next lost := by
  obtain ⟨temp, -, rest⟩ := Option.bind_eq_some_iff.mp taken
  obtain ⟨os, truncates, same⟩ := Option.bind_eq_some_iff.mp rest
  cases same
  exact accounted.holds (FileStore.truncate_holds truncates)

theorem Accounted.replace (accounted : Accounted state lost) {old : Str}
    (taken : state.replace old = some (given, next)) : Accounted next lost := by
  obtain ⟨temp, -, rest⟩ := Option.bind_eq_some_iff.mp taken
  obtain ⟨bytes, -, rest⟩ := Option.bind_eq_some_iff.mp rest
  obtain ⟨⟨answer, unlinked⟩, removed, same⟩ := Option.bind_eq_some_iff.mp rest
  cases same
  exact accounted.unlink removed

theorem Accounted.step {call : LocalCall} (accounted : Accounted state lost)
    (fresh : state.Fresh call) (taken : state.step call = some (given, next)) :
    Accounted next (lost ++ state.displaced call) := by
  have nothing {after : LocalFiles} (kept : Accounted after lost) : Accounted after (lost ++ []) :=
    (List.append_nil lost).symm ▸ kept
  cases call with
  | create path temp tempFd =>
      simp only [LocalFiles.step, Option.ite_none_right_eq_some, Option.some.injEq] at taken
      rw [show next = (state.create path temp tempFd).2 from (congrArg Prod.snd taken.2).symm]
      exact accounted.create fresh
  | openFile path flags tempFd =>
      simp only [LocalFiles.step, Option.ite_none_left_eq_some] at taken
      exact nothing (accounted.openFile fresh taken.2)
  | openOnDrive =>
      cases taken
      exact nothing ⟨accounted.temps, accounted.descriptors,
        fun fd member => Nat.lt_succ_of_lt (accounted.numbered fd member)⟩
  | read path length offset fd =>
      simp only [LocalFiles.step, Option.ite_none_left_eq_some] at taken
      exact nothing (accounted.read taken.2)
  | write => exact nothing (accounted.write taken)
  | truncate => exact nothing (accounted.truncate taken)
  | getattr path =>
      simp only [LocalFiles.step, Option.ite_none_left_eq_some] at taken
      obtain ⟨temp, -, rest⟩ := Option.bind_eq_some_iff.mp taken.2
      obtain ⟨size, -, same⟩ := Option.bind_eq_some_iff.mp rest
      cases same
      exact nothing accounted
  | rename old new =>
      simp only [LocalFiles.step, Option.ite_none_right_eq_some] at taken
      exact accounted.rename taken.2
  | replace old new =>
      simp only [LocalFiles.step, Option.ite_none_left_eq_some] at taken
      exact nothing (accounted.replace taken.2)
  | unlink => exact nothing (accounted.unlink taken)
  | release => exact nothing (accounted.release taken)

end Accounted

end FuseDrive.Fuse.LocalFiles

namespace FuseDrive.Fuse

/-- After any sequence of calls the temporary files are those of the paths and
the ones that the calls displaced, and no descriptor is open without a handle. -/
theorem tempFiles_accounted {calls : List LocalCall}
    (fresh : Along LocalFiles.step LocalFiles.Fresh {} calls) :
    (after LocalFiles.step {} calls).os.names.keys.Perm
        (Dict.values (after LocalFiles.step {} calls).localOnlyFiles ++
          gathered LocalFiles.step LocalFiles.displaced {} calls) ∧
      (after LocalFiles.step {} calls).os.descriptors.keys.Perm
        ((Dict.values (after LocalFiles.step {} calls).openFiles).map LocalHandle.tempFd) := by
  have accounted : LocalFiles.Accounted _ ([] ++ gathered LocalFiles.step _ {} calls) :=
    fresh.invariant_gathered
      (fun accounted isFresh taken => accounted.step isFresh taken) .initial
  exact ⟨accounted.temps, accounted.descriptors⟩

/-- The second file is renamed over the first, closed and removed. -/
def renamedOver : List LocalCall :=
  [.create ['/', 'a', '~'] ['s'] 3, .create ['/', 'b', '~'] ['t'] 4,
    .rename ['/', 'b', '~'] ['/', 'a', '~'], .release 1000, .release 1001, .unlink ['/', 'a', '~']]

theorem tempFiles_accounted_renamedOver :
    gathered LocalFiles.step LocalFiles.displaced {} renamedOver = [['s']] ∧
      (after LocalFiles.step {} renamedOver).os.names.keys.Perm
          (Dict.values (after LocalFiles.step {} renamedOver).localOnlyFiles ++
            gathered LocalFiles.step LocalFiles.displaced {} renamedOver) ∧
        (after LocalFiles.step {} renamedOver).os.descriptors.keys.Perm
          ((Dict.values (after LocalFiles.step {} renamedOver).openFiles).map LocalHandle.tempFd) :=
  ⟨by decide, tempFiles_accounted (by decide)⟩

end FuseDrive.Fuse
