/-
# AsterKV.Storage.InMemoryStorage -- the map behind every engine

`values_` is a `std::unordered_map<std::string, std::string>`; iteration order is
never used, so a finite map is the whole state.  The mutex makes each method one
atomic step, which is how the concurrent model uses them.
-/
import Mathlib.Data.Finmap
import AsterKV.Storage.StorageEngine

namespace AsterKV.Storage

open AsterKV.Core

set_option autoImplicit false

structure InMemoryStorage where
  values : Finmap (fun _ : Bytes => Bytes)
  deriving DecidableEq

namespace InMemoryStorage

def emptyKeyStatus : Status := .invalidArgument (bytes "key must not be empty")

def keyNotFoundStatus : Status := .notFound (bytes "key not found")

/-- A default-constructed storage. -/
def empty : InMemoryStorage := ⟨∅⟩

/-- What a lookup under the mutex finds. -/
def lookup (storage : InMemoryStorage) (key : Bytes) : Option Bytes := storage.values.lookup key

def insert (storage : InMemoryStorage) (key value : Bytes) : InMemoryStorage :=
  ⟨storage.values.insert key value⟩

def erase (storage : InMemoryStorage) (key : Bytes) : InMemoryStorage :=
  ⟨storage.values.erase key⟩

def set (storage : InMemoryStorage) (key value : Bytes) : Status × InMemoryStorage :=
  if key.isEmpty then (emptyKeyStatus, storage)
  else (.ok, storage.insert key value)

def get (storage : InMemoryStorage) (key : Bytes) : Result Bytes :=
  if key.isEmpty then .failure emptyKeyStatus
  else match storage.lookup key with
    | none => .failure keyNotFoundStatus
    | some value => .success value

def remove (storage : InMemoryStorage) (key : Bytes) : Status × InMemoryStorage :=
  if key.isEmpty then (emptyKeyStatus, storage)
  else match storage.lookup key with
    | none => (keyNotFoundStatus, storage)
    | some _ => (.ok, storage.erase key)

def exists? (storage : InMemoryStorage) (key : Bytes) : Result Bool :=
  if key.isEmpty then .failure emptyKeyStatus
  else .success (storage.lookup key).isSome

instance : StorageEngine InMemoryStorage where
  set := set
  get := get
  remove := remove
  exists? := exists?

/-! ## Lookups -/

@[simp] theorem lookup_empty (key : Bytes) : empty.lookup key = none :=
  Finmap.lookup_empty key

@[simp] theorem lookup_insert (storage : InMemoryStorage) (key value : Bytes) :
    (storage.insert key value).lookup key = some value :=
  Finmap.lookup_insert _

theorem lookup_insert_of_ne (storage : InMemoryStorage) {key other : Bytes} (value : Bytes)
    (ne : other ≠ key) : (storage.insert key value).lookup other = storage.lookup other :=
  Finmap.lookup_insert_of_ne _ ne

@[simp] theorem lookup_erase (storage : InMemoryStorage) (key : Bytes) :
    (storage.erase key).lookup key = none :=
  Finmap.lookup_erase _ _

theorem lookup_erase_of_ne (storage : InMemoryStorage) {key other : Bytes} (ne : other ≠ key) :
    (storage.erase key).lookup other = storage.lookup other :=
  Finmap.lookup_erase_ne ne

/-- Two storages are equal when every lookup agrees. -/
theorem ext_lookup {s t : InMemoryStorage} (same : ∀ key, s.lookup key = t.lookup key) : s = t := by
  obtain ⟨sv⟩ := s
  obtain ⟨tv⟩ := t
  have values : sv = tv := Finmap.ext_lookup same
  rw [values]

/-! ## What each method does -/

theorem set_of_ne {storage : InMemoryStorage} {key value : Bytes} (ne : key ≠ []) :
    storage.set key value = (.ok, storage.insert key value) := by
  simp [set, ne]

theorem remove_of_lookup {storage : InMemoryStorage} {key value : Bytes} (ne : key ≠ [])
    (found : storage.lookup key = some value) : storage.remove key = (.ok, storage.erase key) := by
  simp [remove, ne, found]

theorem remove_of_absent {storage : InMemoryStorage} {key : Bytes} (ne : key ≠ [])
    (absent : storage.lookup key = none) : storage.remove key = (keyNotFoundStatus, storage) := by
  simp [remove, ne, absent]

theorem exists?_of_ne {storage : InMemoryStorage} {key : Bytes} (ne : key ≠ []) :
    storage.exists? key = .success (storage.lookup key).isSome := by
  simp [exists?, ne]

/-- What an existence test that comes back says about the map. -/
theorem exists?_cases (storage : InMemoryStorage) (key : Bytes) :
    storage.exists? key = .error ⟨emptyKeyStatus, rfl⟩ ∨
      (key ≠ [] ∧ storage.lookup key = none ∧ storage.exists? key = .ok false) ∨
      (key ≠ [] ∧ (∃ value, storage.lookup key = some value) ∧ storage.exists? key = .ok true) := by
  by_cases empty : key = []
  · left
    rw [empty]
    rfl
  · right
    rw [exists?_of_ne empty]
    rcases Option.eq_none_or_eq_some (storage.lookup key) with absent | ⟨value, found⟩
    · exact Or.inl ⟨empty, absent, by rw [absent]; rfl⟩
    · exact Or.inr ⟨empty, ⟨value, found⟩, by rw [found]; rfl⟩

end InMemoryStorage

end AsterKV.Storage
