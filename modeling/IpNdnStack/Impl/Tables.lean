import Mathlib.Data.Finset.Basic
import IpNdnStack.Impl.Tuple

/-!
# `MapCacheHelper` and `SetHelper`

The tables of `helper/MapCacheHelper.h` and `helper/SetHelper.h`. Each
function but `getAndIncreaseSequence` holds one lock for all of its body, so
its body is one step of its caller.
-/

namespace IpNdn

/-- `MapCacheHelper<T>`: what the `unordered_map` has at each key. -/
structure MapCacheHelper (T : Type) where
  ipPacketCache : Text → Option T

namespace MapCacheHelper

variable {T : Type}

def empty : MapCacheHelper T := ⟨fun _ => none⟩

/-- `insert` adds no pair whose key is there; `save` says whether it added it. -/
def save (m : MapCacheHelper T) (key : Text) (value : T) : MapCacheHelper T × Bool :=
  match m.ipPacketCache key with
  | some _ => (m, false)
  | none => (⟨Function.update m.ipPacketCache key (some value)⟩, true)

/-- The value of a key; `none` for the pair of `emptyItem` and `false`. -/
def get (m : MapCacheHelper T) (key : Text) : Option T := m.ipPacketCache key

def erase (m : MapCacheHelper T) (key : Text) : MapCacheHelper T :=
  ⟨Function.update m.ipPacketCache key none⟩

/-- `getAndIncreaseSequence` of a table of `int`s, run by itself: the table,
the tuple and what it returns. The number is of 32 bits in both `int` and
`unsigned int`. -/
def getAndIncreaseSequence (m : MapCacheHelper (BitVec 32)) (key : Text) (tuple : Tuple) :
    MapCacheHelper (BitVec 32) × Tuple × Bool :=
  match m.get key with
  | none => (m, tuple, false)
  | some first =>
    let m := m.erase key
    let tuple := { tuple with index := first + 1 }
    let (m, success) := m.save key tuple.index
    (m, tuple, success)

theorem save_of_none {m : MapCacheHelper T} {key : Text} (h : m.get key = none) (value : T) :
    m.save key value = (⟨Function.update m.ipPacketCache key (some value)⟩, true) := by
  simp only [get] at h
  simp only [save, h]

theorem save_of_some {m : MapCacheHelper T} {key : Text} {v : T} (h : m.get key = some v) (value : T) :
    m.save key value = (m, false) := by
  simp only [get] at h
  simp only [save, h]

theorem get_erase (m : MapCacheHelper T) (key k : Text) :
    (m.erase key).get k = if k = key then none else m.get k := by
  simp only [get, erase, Function.update_apply]

theorem get_update (m : MapCacheHelper T) (key k : Text) (v : Option T) :
    get ⟨Function.update m.ipPacketCache key v⟩ k = if k = key then v else m.get k := by
  simp only [get, Function.update_apply]

/-- Run by itself on a key that is there, `getAndIncreaseSequence` counts it up. -/
theorem getAndIncreaseSequence_of_some {m : MapCacheHelper (BitVec 32)} {key : Text} {v : BitVec 32}
    (h : m.get key = some v) (tuple : Tuple) :
    m.getAndIncreaseSequence key tuple =
      (⟨Function.update m.ipPacketCache key (some (v + 1))⟩, { tuple with index := v + 1 }, true) := by
  have he : (m.erase key).get key = none := by rw [get_erase, if_pos rfl]
  simp only [getAndIncreaseSequence, h, save_of_none he]
  simp only [erase, Function.update_idem]

end MapCacheHelper

/-- `SetHelper<T>` -/
structure SetHelper (T : Type) where
  s : Finset T

namespace SetHelper

variable {T : Type} [DecidableEq T]

def empty : SetHelper T := ⟨∅⟩

/-- Adds `t`, and says whether it was not there. -/
def saveConcurrence (h : SetHelper T) (t : T) : SetHelper T × Bool :=
  if t ∈ h.s then (h, false) else (⟨insert t h.s⟩, true)

def find (h : SetHelper T) (t : T) : Bool := t ∈ h.s

def erase (h : SetHelper T) (t : T) : SetHelper T := ⟨h.s.erase t⟩

theorem saveConcurrence_of_mem {h : SetHelper T} {t : T} (ht : t ∈ h.s) : h.saveConcurrence t = (h, false) :=
  if_pos ht

theorem saveConcurrence_of_notMem {h : SetHelper T} {t : T} (ht : t ∉ h.s) :
    h.saveConcurrence t = (⟨insert t h.s⟩, true) := if_neg ht

end SetHelper

end IpNdn
