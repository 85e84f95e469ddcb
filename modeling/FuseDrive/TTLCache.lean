import FuseDrive.Dict

/-!
# Bounded maps with lifetimes

`cachetools.TTLCache`: an entry is gone once its lifetime has passed, and a map
that is full gives up an entry for a new one.  Which entry that is depends on
the order in which the map was used, so it is an argument here, and `MayEvict`
says what it can be.
-/

namespace FuseDrive

/-- Each key with its value and the time at which its lifetime ends. -/
structure TTLCache (κ ν : Type) where
  entries : Dict κ (ν × Nat)

namespace TTLCache

variable {κ ν : Type} [DecidableEq κ]

def empty : TTLCache κ ν := ⟨∅⟩

def get (cache : TTLCache κ ν) (now : Nat) (key : κ) : Option ν :=
  (cache.entries.lookup key).bind fun entry => if now < entry.2 then some entry.1 else none

/-- The number of entries whose lifetime has not passed. -/
def currsize (cache : TTLCache κ ν) (now : Nat) : Nat :=
  (cache.entries.keys.filter fun key => (cache.get now key).isSome).length

/-- The map is full and the key is not in it. -/
def Exceeds (cache : TTLCache κ ν) (maxsize now : Nat) (key : κ) : Prop :=
  cache.get now key = none ∧ maxsize ≤ cache.currsize now

/-- What setting a key may evict. -/
def MayEvict (cache : TTLCache κ ν) (maxsize now : Nat) (key : κ) : Option κ → Prop
  | none => ¬ cache.Exceeds maxsize now key
  | some victim => cache.Exceeds maxsize now key ∧ cache.get now victim ≠ none

instance [DecidableEq ν] (cache : TTLCache κ ν) (maxsize now : Nat) (key : κ) :
    Decidable (cache.Exceeds maxsize now key) :=
  inferInstanceAs (Decidable (_ ∧ _))

instance [DecidableEq ν] (cache : TTLCache κ ν) (maxsize now : Nat) (key : κ) :
    (victim : Option κ) → Decidable (cache.MayEvict maxsize now key victim)
  | none => inferInstanceAs (Decidable (¬ _))
  | some _ => inferInstanceAs (Decidable (_ ∧ _))

def pop (cache : TTLCache κ ν) (key : κ) : TTLCache κ ν := ⟨cache.entries.erase key⟩

def evict (cache : TTLCache κ ν) (victim : Option κ) : TTLCache κ ν :=
  victim.elim cache cache.pop

def set (cache : TTLCache κ ν) (ttl now : Nat) (victim : Option κ) (key : κ) (value : ν) :
    TTLCache κ ν :=
  ⟨(cache.evict victim).entries.insert key (value, now + ttl)⟩

@[simp] theorem get_empty (now : Nat) (key : κ) :
    (empty : TTLCache κ ν).get now key = none := rfl

theorem get_pop (cache : TTLCache κ ν) (now : Nat) (key other : κ) :
    (cache.pop key).get now other = if other = key then none else cache.get now other := by
  unfold get pop
  rw [Dict.lookup_erase_eq]
  split <;> rfl

theorem get_evict (cache : TTLCache κ ν) (now : Nat) (victim : Option κ) (other : κ) :
    (cache.evict victim).get now other =
      if victim = some other then none else cache.get now other := by
  cases victim with
  | none => rfl
  | some key =>
      show (cache.pop key).get now other = _
      rw [get_pop]
      simp only [Option.some.injEq, eq_comm]

/-- A key that was set is there, the evicted one is not, and the others are as
they were. -/
theorem get_set {ttl : Nat} (positive : 0 < ttl) (cache : TTLCache κ ν) (now : Nat)
    (victim : Option κ) (key other : κ) (value : ν) :
    (cache.set ttl now victim key value).get now other =
      if other = key then some value
      else if victim = some other then none
      else cache.get now other := by
  rw [← get_evict]
  unfold get set
  rw [Dict.lookup_insert_eq]
  split
  · rw [Option.bind_some, if_pos (Nat.lt_add_of_pos_right positive)]
  · rfl

/-- Time only takes entries away. -/
theorem get_of_le {cache : TTLCache κ ν} {now later : Nat} {key : κ} {value : ν}
    (passes : now ≤ later) (found : cache.get later key = some value) :
    cache.get now key = some value := by
  unfold get at found ⊢
  rw [Option.bind_eq_some_iff] at found ⊢
  obtain ⟨entry, isThere, alive⟩ := found
  refine ⟨entry, isThere, ?_⟩
  split at alive
  · rename_i notYet
    rw [if_pos (Nat.lt_of_le_of_lt passes notYet)]
    exact alive
  · cases alive

end TTLCache

end FuseDrive
