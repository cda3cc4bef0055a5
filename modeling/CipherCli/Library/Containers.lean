import Mathlib.Data.Finset.Card
import Mathlib.Data.Multiset.Basic

/-!
# Hash containers

Maps and sets are the extensional ones of the standard library. A hash
container yields its entries in an order of its own, so code that iterates over
one takes the order from an `Iteration`: any rearrangement of the entries.
-/

namespace CipherCli.Library

open Std

structure Iteration (α : Type) where
  order : List α → List α
  perm (l : List α) : (order l).Perm l

def Iteration.ascending (α : Type) : Iteration α where
  order := id
  perm _ := List.Perm.refl _

section Maps

variable {K V : Type} [Ord K] [TransOrd K]

theorem toList_nodup (m : ExtTreeMap K V) : m.toList.Nodup := by
  apply List.Nodup.of_map Prod.fst
  rw [ExtTreeMap.map_fst_toList_eq_keys]
  exact ExtTreeMap.nodup_keys

/-- What holds of every entry holds of those that an erasure leaves. -/
theorem entries_erase {P : K → V → Prop} {m : ExtTreeMap K V} {k : K}
    (hEntries : ∀ k v, m[k]? = some v → P k v) :
    ∀ k' v', (m.erase k)[k']? = some v' → P k' v' := by
  intro k' v' hEntry
  rw [ExtTreeMap.getElem?_erase] at hEntry
  split at hEntry
  · cases hEntry
  · exact hEntries k' v' hEntry

variable [LawfulEqOrd K]

theorem toList_insert_perm {m : ExtTreeMap K V} {k : K} (hNew : m[k]? = none) (v : V) :
    (m.insert k v).toList.Perm ((k, v) :: m.toList) := by
  have hAbsent : (k, v) ∉ m.toList := by
    rw [ExtTreeMap.mem_toList_iff_getElem?_eq_some, hNew]
    simp
  rw [List.perm_ext_iff_of_nodup (toList_nodup _) (List.nodup_cons.mpr ⟨hAbsent, toList_nodup m⟩)]
  rintro ⟨k', v'⟩
  rw [List.mem_cons, ExtTreeMap.mem_toList_iff_getElem?_eq_some,
    ExtTreeMap.mem_toList_iff_getElem?_eq_some, ExtTreeMap.getElem?_insert]
  by_cases hKey : k = k'
  · subst hKey
    simp [hNew, eq_comm]
  · have hKey' : k' ≠ k := Ne.symm hKey
    simp [hKey, hKey']

/-- A lookup after an insertion, with the keys compared by equality. -/
theorem lookup_insert [DecidableEq K] (m : ExtTreeMap K V) (k k' : K) (v : V) :
    (m.insert k v)[k']? = if k = k' then some v else m[k']? := by
  rw [ExtTreeMap.getElem?_insert]
  by_cases hKey : k = k'
  · rw [if_pos (Std.compare_eq_iff_eq.mpr hKey), if_pos hKey]
  · rw [if_neg (mt Std.compare_eq_iff_eq.mp hKey), if_neg hKey]

/-- An entry that is written again changes nothing. -/
theorem insert_of_getElem? {m : ExtTreeMap K V} {k : K} {v : V} (hEntry : m[k]? = some v) :
    m.insert k v = m := by
  apply ExtTreeMap.ext_getElem?
  intro k'
  rw [ExtTreeMap.getElem?_insert]
  split
  · rename_i hKey
    rw [← Std.compare_eq_iff_eq.mp hKey, hEntry]
  · rfl

/-- What holds of every entry, and of a new one, holds of every entry after its insertion. -/
theorem entries_insert {P : K → V → Prop} {m : ExtTreeMap K V} {k : K} {v : V}
    (hEntries : ∀ k v, m[k]? = some v → P k v) (hNew : P k v) :
    ∀ k' v', (m.insert k v)[k']? = some v' → P k' v' := by
  intro k' v' hEntry
  rw [ExtTreeMap.getElem?_insert] at hEntry
  split at hEntry
  · rename_i hKey
    rw [← Std.compare_eq_iff_eq.mp hKey, ← Option.some.inj hEntry]
    exact hNew
  · exact hEntries k' v' hEntry

/-- An entry is split off a map. -/
theorem toList_perm_erase {m : ExtTreeMap K V} {k : K} {v : V} (hEntry : m[k]? = some v) :
    m.toList.Perm ((k, v) :: (m.erase k).toList) := by
  have hInsert : (m.erase k).insert k v = m := by
    apply ExtTreeMap.ext_getElem?
    intro k'
    rw [ExtTreeMap.getElem?_insert, ExtTreeMap.getElem?_erase]
    by_cases hKey : k = k'
    · subst hKey
      simp [hEntry]
    · simp [hKey]
  have hErased : (m.erase k)[k]? = none := by simp
  have hPerm := toList_insert_perm hErased v
  rwa [hInsert] at hPerm

/-- A map whose `n` keys are numbered below `n` has a key for each of these numbers. -/
theorem exists_key_of_size {number : K → Nat} (hInj : Function.Injective number)
    {m : ExtTreeMap K V} {n : Nat} (hBelow : ∀ k ∈ m, number k < n) (hSize : m.size = n) {i : Nat}
    (hi : i < n) : ∃ k ∈ m, number k = i := by
  have hNodup : (m.keys.map number).Nodup := ExtTreeMap.nodup_keys.map hInj
  have hSubset : (m.keys.map number).toFinset ⊆ Finset.range n := by
    intro j hj
    obtain ⟨k, hk, rfl⟩ := List.mem_map.mp (List.mem_toFinset.mp hj)
    exact Finset.mem_range.mpr (hBelow k (ExtTreeMap.mem_keys.mp hk))
  have hCard : (Finset.range n).card ≤ (m.keys.map number).toFinset.card := by
    rw [Finset.card_range, List.toFinset_card_of_nodup hNodup, List.length_map,
      ExtTreeMap.length_keys, hSize]
  have hAll := Finset.eq_of_subset_of_card_le hSubset hCard
  have hMem : i ∈ (m.keys.map number).toFinset := by
    rw [hAll]
    exact Finset.mem_range.mpr hi
  obtain ⟨k, hk, hNumber⟩ := List.mem_map.mp (List.mem_toFinset.mp hMem)
  exact ⟨k, ExtTreeMap.mem_keys.mp hk, hNumber⟩

/-- A rearranged list of the entries is searched like the map. -/
theorem lookup_of_perm [BEq K] [LawfulBEq K] {m : ExtTreeMap K V} {l : List (K × V)}
    (hPerm : l.Perm m.toList) (k : K) : l.lookup k = m[k]? := by
  cases hEntry : m[k]? with
  | none =>
    rw [List.lookup_eq_none_iff]
    intro entry hMem
    have hFound := ExtTreeMap.mem_toList_iff_getElem?_eq_some.mp (hPerm.mem_iff.mp hMem)
    rw [bne_iff_ne]
    rintro rfl
    rw [hFound] at hEntry
    cases hEntry
  | some v =>
    have hMem : (k, v) ∈ l :=
      hPerm.mem_iff.mpr (ExtTreeMap.mem_toList_iff_getElem?_eq_some.mpr hEntry)
    obtain ⟨before, after, rfl⟩ := List.append_of_mem hMem
    rw [List.lookup_eq_some_iff]
    refine ⟨before, after, rfl, ?_⟩
    intro entry hBefore
    have hKeys : ((before ++ (k, v) :: after).map Prod.fst).Nodup := by
      rw [(hPerm.map Prod.fst).nodup_iff, ExtTreeMap.map_fst_toList_eq_keys]
      exact ExtTreeMap.nodup_keys
    rw [List.map_append, List.map_cons] at hKeys
    have hNe : entry.1 ≠ k := by
      intro hSame
      exact List.disjoint_of_nodup_append hKeys (List.mem_map_of_mem hBefore)
        (by rw [hSame]; exact List.mem_cons_self)
    simpa using Ne.symm hNe

end Maps

theorem set_toList_nodup {K : Type} [Ord K] [TransOrd K] [LawfulEqOrd K] (s : ExtTreeSet K) :
    s.toList.Nodup := by
  apply ExtTreeSet.distinct_toList.imp
  intro a b hDistinct hEq
  exact hDistinct (Std.compare_eq_iff_eq.mpr hEq)

end CipherCli.Library
