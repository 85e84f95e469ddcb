import FuseDrive.Upload.QueueFile

/-!
# A queue as text

The layout of `json.dump(queue, f, indent=2)` for ids, paths and names of
printable characters, and a reader for it.  The queue file model takes the two
`json` functions as a parameter and relies on their round trip; this module
shows a pair that has it, and a run of the queue over their texts in which a
crash tears a save.
-/

namespace FuseDrive.Upload

open Transition

namespace QueueText

/-! ## Strings and numbers -/

def escape (character : Char) : Str :=
  if character = '"' ∨ character = '\\' then ['\\', character] else [character]

def quote (text : Str) : Str :=
  '"' :: (text.flatMap escape ++ ['"'])

/-- What is left after a literal. -/
def expect : Str → Str → Option Str
  | [], text => some text
  | character :: literal, other :: text =>
      if character = other then expect literal text else none
  | _ :: _, [] => none

/-- A string from behind its opening quote, and what follows it; `escaped`
tells whether the last character was a backslash. -/
def readString (escaped : Bool) : Str → Option (Str × Str)
  | [] => none
  | character :: text =>
      if escaped then
        (readString false text).map fun (read, rest) => (character :: read, rest)
      else if character = '"' then some ([], text)
      else if character = '\\' then readString true text
      else (readString false text).map fun (read, rest) => (character :: read, rest)

def readQuoted (text : Str) : Option (Str × Str) :=
  (expect ['"'] text).bind (readString false)

def writeNullable : Option Str → Str
  | none => "null".toList
  | some text => quote text

def readNullable (text : Str) : Option (Option Str × Str) :=
  match expect "null".toList text with
  | some rest => some (none, rest)
  | none => (readQuoted text).map fun (read, rest) => (some read, rest)

def readNat (text : Str) : Nat × Str :=
  (Nat.ofDigitChars 10 (text.takeWhile Char.isDigit) 0, text.dropWhile Char.isDigit)

theorem expect_append (literal text : Str) : expect literal (literal ++ text) = some text := by
  induction literal with
  | nil => rfl
  | cons character literal induction => simp [expect, induction]

theorem readString_flatMap (text rest : Str) :
    readString false (text.flatMap escape ++ '"' :: rest) = some (text, rest) := by
  induction text with
  | nil => simp [readString]
  | cons character text induction =>
      by_cases special : character = '"' ∨ character = '\\'
      · have kept : escape character = ['\\', character] := if_pos special
        simp [kept, readString, induction]
      · obtain ⟨notQuote, notBackslash⟩ := not_or.mp special
        simp [escape, notQuote, notBackslash, readString, induction]

theorem readQuoted_quote (text rest : Str) :
    readQuoted (quote text ++ rest) = some (text, rest) := by
  simp [readQuoted, quote, expect, readString_flatMap]

theorem readNullable_writeNullable (text : Option Str) (rest : Str) :
    readNullable (writeNullable text ++ rest) = some (text, rest) := by
  cases text with
  | none => simp only [readNullable, writeNullable, expect_append]
  | some text =>
      have different : expect "null".toList (quote text ++ rest) = none := rfl
      simp only [readNullable, writeNullable, different, readQuoted_quote, Option.map_some]

theorem readNat_toDigits (number : Nat) {character : Char} (rest : Str)
    (stop : character.isDigit = false) :
    readNat (Nat.toDigits 10 number ++ character :: rest) = (number, character :: rest) := by
  have digits : ∀ digit ∈ Nat.toDigits 10 number, digit.isDigit = true :=
    fun digit member => Nat.isDigit_of_mem_toDigits (by decide) (by decide) member
  simp [readNat, List.takeWhile_append_of_pos digits, List.dropWhile_append_of_pos digits,
    stop, Nat.ofDigitChars_ten_toDigits]

/-! ## Entries -/

def statusText : JobStatus → Str
  | .pending => "pending".toList
  | .failed => "failed".toList

def typeText : JobType → Str
  | .update => "update".toList
  | .create => "create".toList

def readStatus (text : Str) : Option JobStatus :=
  if text = "pending".toList then some .pending
  else if text = "failed".toList then some .failed
  else none

def readType (text : Str) : Option JobType :=
  if text = "update".toList then some .update
  else if text = "create".toList then some .create
  else none

theorem readStatus_statusText (status : JobStatus) :
    readStatus (statusText status) = some status := by
  cases status <;> decide

theorem readType_typeText (jobType : JobType) : readType (typeText jobType) = some jobType := by
  cases jobType <;> decide

def writeEntry (fileId : Str) (entry : QueueEntry) : Str :=
  quote fileId ++ (": \x7b\n    \"path\": ".toList ++ (quote entry.path ++
    (",\n    \"retries\": ".toList ++ (Nat.toDigits 10 entry.retries ++
      (",\n    \"status\": ".toList ++ (quote (statusText entry.status) ++
        (",\n    \"job_type\": ".toList ++ (quote (typeText entry.jobType) ++
          (",\n    \"parent_id\": ".toList ++ (writeNullable entry.parentId ++
            (",\n    \"name\": ".toList ++ (writeNullable entry.name ++
              "\n  \x7d".toList))))))))))))

def readEntry (text : Str) : Option ((Str × QueueEntry) × Str) := do
  let (fileId, text) ← readQuoted text
  let text ← expect ": \x7b\n    \"path\": ".toList text
  let (path, text) ← readQuoted text
  let text ← expect ",\n    \"retries\": ".toList text
  let (retries, text) := readNat text
  let text ← expect ",\n    \"status\": ".toList text
  let (status, text) ← readQuoted text
  let status ← readStatus status
  let text ← expect ",\n    \"job_type\": ".toList text
  let (jobType, text) ← readQuoted text
  let jobType ← readType jobType
  let text ← expect ",\n    \"parent_id\": ".toList text
  let (parentId, text) ← readNullable text
  let text ← expect ",\n    \"name\": ".toList text
  let (name, text) ← readNullable text
  let text ← expect "\n  \x7d".toList text
  return ((fileId, ⟨path, retries, status, jobType, parentId, name⟩), text)

theorem some_bind {α β : Type} (value : α) (next : α → Option β) :
    (some value >>= next) = next value := rfl

theorem readEntry_writeEntry (fileId : Str) (entry : QueueEntry) (rest : Str) :
    readEntry (writeEntry fileId entry ++ rest) = some ((fileId, entry), rest) := by
  have number (text : Str) :
      readNat (Nat.toDigits 10 entry.retries ++ (",\n    \"status\": ".toList ++ text)) =
        (entry.retries, ",\n    \"status\": ".toList ++ text) :=
    readNat_toDigits entry.retries _ rfl
  simp only [readEntry, writeEntry, List.append_assoc, readQuoted_quote, expect_append,
    number, readStatus_statusText, readType_typeText, readNullable_writeNullable,
    some_bind, Option.pure_def]

/-! ## Queues -/

def writeRest : List (Sigma fun _ : Str => QueueEntry) → Str
  | [] => "\n\x7d".toList
  | ⟨fileId, entry⟩ :: entries =>
      ",\n  ".toList ++ (writeEntry fileId entry ++ writeRest entries)

def writeEntries : List (Sigma fun _ : Str => QueueEntry) → Str
  | [] => "\x7b\x7d".toList
  | ⟨fileId, entry⟩ :: entries =>
      "\x7b\n  ".toList ++ (writeEntry fileId entry ++ writeRest entries)

/-- `fuel` bounds the number of entries. -/
def readRest : Nat → Str → Option (List (Sigma fun _ : Str => QueueEntry))
  | 0, text => if text = "\n\x7d".toList then some [] else none
  | fuel + 1, text =>
      match expect ",\n  ".toList text with
      | some text =>
          (readEntry text).bind fun (entry, text) =>
            (readRest fuel text).map (⟨entry.1, entry.2⟩ :: ·)
      | none => if text = "\n\x7d".toList then some [] else none

def readEntries (text : Str) : Option (List (Sigma fun _ : Str => QueueEntry)) :=
  match expect "\x7b\n  ".toList text with
  | some rest =>
      (readEntry rest).bind fun (entry, rest) =>
        (readRest text.length rest).map (⟨entry.1, entry.2⟩ :: ·)
  | none => if text = "\x7b\x7d".toList then some [] else none

theorem readRest_writeRest (entries : List (Sigma fun _ : Str => QueueEntry)) {fuel : Nat}
    (enough : entries.length ≤ fuel) : readRest fuel (writeRest entries) = some entries := by
  induction entries generalizing fuel with
  | nil => cases fuel <;> rfl
  | cons entry entries induction =>
      cases fuel with
      | zero => simp at enough
      | succ fuel =>
          have fewer : entries.length ≤ fuel := by simpa using enough
          simp only [readRest, writeRest, expect_append, readEntry_writeEntry,
            Option.bind_some, induction fewer, Option.map_some]

theorem length_le_writeRest (entries : List (Sigma fun _ : Str => QueueEntry)) :
    entries.length ≤ (writeRest entries).length := by
  induction entries with
  | nil => simp
  | cons entry entries induction =>
      simp only [writeRest, List.length_append, List.length_cons]
      have separated : (",\n  ".toList).length = 4 := rfl
      omega

theorem readEntries_writeEntries (entries : List (Sigma fun _ : Str => QueueEntry)) :
    readEntries (writeEntries entries) = some entries := by
  cases entries with
  | nil => rfl
  | cons entry entries =>
      have enough : entries.length ≤ (writeEntries (entry :: entries)).length := by
        have bound := length_le_writeRest entries
        simp only [writeEntries, List.length_append]
        omega
      have read := readRest_writeRest entries enough
      simp only [writeEntries] at read
      simp only [readEntries, writeEntries, expect_append, readEntry_writeEntry,
        Option.bind_some, read, Option.map_some]

end QueueText

open QueueText

/-- The text of a queue; a text with a repeated id is not one. -/
def queueText : QueueFormat where
  dump queue := writeEntries queue.entries
  load text :=
    (readEntries text).bind fun entries =>
      if distinct : (entries.map Sigma.fst).Nodup then some ⟨entries, distinct⟩ else none

theorem queueText_roundTrips : queueText.RoundTrips := by
  intro queue
  have distinct : (queue.entries.map Sigma.fst).Nodup := queue.nodupKeys
  simp [queueText, readEntries_writeEntries, distinct]

def savedEntry : QueueEntry where
  path := "uploads/f_7.tmp".toList
  retries := 0
  status := .pending
  jobType := .create
  parentId := some ['p']
  name := some ['a']

/-- The first save is torn by a crash, a second one is completed and its
attempt fails. -/
def tornSave : List QueueLabel :=
  [.start, .advance, .advance, .take (.enqueue ['f'] savedEntry), .advance, .advance,
    .write "\x7b\n  \"f".toList, .crash, .start, .advance, .advance,
    .take (.enqueue ['f'] savedEntry), .advance, .advance, .advance, .advance, .advance,
    .advance, .take (.fail ['f'] false), .advance, .advance, .advance, .advance, .advance,
    .advance, .advance]

theorem refines_of_reaches_tornSave :
    ∃ finish, run (queueStep queueText 5) (.off none none) tornSave = some finish ∧
      finish.running = true ∧ finish.holder = .free ∧
      finish.queue.lookup ['f'] = some savedEntry.counted ∧ Refines queueText 5 finish := by
  have executed : (run (queueStep queueText 5) (.off none none) tornSave).map
      (fun finish => (finish.running, finish.holder, finish.queue.lookup ['f'])) =
      some (true, .free, some savedEntry.counted) := rfl
  obtain ⟨finish, reached, facts⟩ := Option.map_eq_some_iff.mp executed
  simp only [Prod.mk.injEq] at facts
  obtain ⟨running, free, entry⟩ := facts
  exact ⟨finish, reached, running, free, entry,
    refines_of_reaches queueText_roundTrips (Reaches.of_free_run reached)⟩

end FuseDrive.Upload
