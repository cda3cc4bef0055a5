import CipherCli.Library.Containers
import Mathlib.Data.List.Forall2
import Mathlib.Data.List.Nodup

/-!
# Maps under other names

A renaming says which keys of two sides stand for the same thing, one for one. Two maps
match when they have entries for the same things, with related values. What is done to
both of them in the same way keeps them matching. Two fallible computations agree when they
fail alike or give related results.
-/

namespace CipherCli.Library

open Std

/-- The same things under two sets of names. -/
structure Renaming (K : Type) where
  Same : K → K → Prop
  unique : ∀ {k k' l l'}, Same k k' → Same l l' → (k = l ↔ k' = l')

/-- No other names. -/
def Renaming.refl (K : Type) : Renaming K where
  Same := Eq
  unique := by
    rintro k _ l _ rfl rfl
    exact Iff.rfl

section Maps

variable {K A B C D : Type} [Ord K] [TransOrd K]

structure Matches (names : Renaming K) (V : A → B → Prop) (m : ExtTreeMap K A)
    (m' : ExtTreeMap K B) : Prop where
  lookup : ∀ {k k'}, names.Same k k' → m[k]? = none ∧ m'[k']? = none ∨
    ∃ v v', m[k]? = some v ∧ m'[k']? = some v' ∧ V v v'
  named : ∀ {k v}, m[k]? = some v → ∃ k', names.Same k k'
  named' : ∀ {k' v'}, m'[k']? = some v' → ∃ k, names.Same k k'

variable {names : Renaming K} {V : A → B → Prop} {m : ExtTreeMap K A} {m' : ExtTreeMap K B}
  {k k' : K}

theorem Matches.empty : Matches names V (∅ : ExtTreeMap K A) (∅ : ExtTreeMap K B) where
  lookup := fun _ => Or.inl ⟨ExtTreeMap.getElem?_empty, ExtTreeMap.getElem?_empty⟩
  named := by
    intro k v hEntry
    rw [ExtTreeMap.getElem?_empty] at hEntry
    cases hEntry
  named' := by
    intro k' v' hEntry
    rw [ExtTreeMap.getElem?_empty] at hEntry
    cases hEntry

theorem Matches.getD (hMatches : Matches names V m m') (hSame : names.Same k k') {a : A} {b : B}
    (hDefault : V a b) : V (m[k]?.getD a) (m'[k']?.getD b) := by
  rcases hMatches.lookup hSame with ⟨hNone, hNone'⟩ | ⟨v, v', hSome, hSome', hValue⟩
  · rwa [hNone, hNone']
  · rwa [hSome, hSome']

theorem Matches.map [LawfulEqOrd K] (hMatches : Matches names V m m') {W : C → D → Prop}
    {f : A → C} {g : B → D} (hValues : ∀ {a b}, V a b → W (f a) (g b)) :
    Matches names W (m.map fun _ => f) (m'.map fun _ => g) where
  lookup := by
    intro k k' hSame
    rw [ExtTreeMap.getElem?_map, ExtTreeMap.getElem?_map]
    rcases hMatches.lookup hSame with ⟨hNone, hNone'⟩ | ⟨v, v', hSome, hSome', hValue⟩
    · exact Or.inl (by simp [hNone, hNone'])
    · exact Or.inr ⟨f v, g v', by simp [hSome], by simp [hSome'], hValues hValue⟩
  named := by
    intro k v hEntry
    rw [ExtTreeMap.getElem?_map] at hEntry
    obtain ⟨a, hOld, -⟩ := Option.map_eq_some_iff.mp hEntry
    exact hMatches.named hOld
  named' := by
    intro k' v' hEntry
    rw [ExtTreeMap.getElem?_map] at hEntry
    obtain ⟨b, hOld, -⟩ := Option.map_eq_some_iff.mp hEntry
    exact hMatches.named' hOld

variable [LawfulEqOrd K]

theorem Matches.erase (hMatches : Matches names V m m') (hSame : names.Same k k') :
    Matches names V (m.erase k) (m'.erase k') where
  lookup := by
    intro l l' hOther
    rw [ExtTreeMap.getElem?_erase, ExtTreeMap.getElem?_erase]
    by_cases hKey : k = l
    · rw [if_pos (Std.compare_eq_iff_eq.mpr hKey),
        if_pos (Std.compare_eq_iff_eq.mpr ((names.unique hSame hOther).mp hKey))]
      exact Or.inl ⟨rfl, rfl⟩
    · rw [if_neg (mt Std.compare_eq_iff_eq.mp hKey),
        if_neg (mt Std.compare_eq_iff_eq.mp (mt (names.unique hSame hOther).mpr hKey))]
      exact hMatches.lookup hOther
  named := fun hEntry =>
    entries_erase (P := fun k _ => ∃ k', names.Same k k') (fun _ _ => hMatches.named) _ _ hEntry
  named' := fun hEntry =>
    entries_erase (P := fun k' _ => ∃ k, names.Same k k') (fun _ _ => hMatches.named') _ _ hEntry

variable [DecidableEq K]

theorem Matches.insert (hMatches : Matches names V m m') (hSame : names.Same k k') {v : A}
    {v' : B} (hValue : V v v') : Matches names V (m.insert k v) (m'.insert k' v') where
  lookup := by
    intro l l' hOther
    rw [lookup_insert, lookup_insert]
    by_cases hKey : k = l
    · rw [if_pos hKey, if_pos ((names.unique hSame hOther).mp hKey)]
      exact Or.inr ⟨v, v', rfl, rfl, hValue⟩
    · rw [if_neg hKey, if_neg (mt (names.unique hSame hOther).mpr hKey)]
      exact hMatches.lookup hOther
  named := by
    intro l w hEntry
    rw [lookup_insert] at hEntry
    split at hEntry
    · rename_i hKey
      exact ⟨k', hKey ▸ hSame⟩
    · exact hMatches.named hEntry
  named' := by
    intro l' w' hEntry
    rw [lookup_insert] at hEntry
    split at hEntry
    · rename_i hKey
      exact ⟨k, hKey ▸ hSame⟩
    · exact hMatches.named' hEntry

/-- Entries under the same names with related values. -/
def EntryRel (names : Renaming K) (V : A → B → Prop) (entry : K × A) (entry' : K × B) : Prop :=
  names.Same entry.1 entry'.1 ∧ V entry.2 entry'.2

omit [DecidableEq K] in
/-- The entries of matching maps are the same, but for their order. -/
theorem Matches.toList (hMatches : Matches names V m m') :
    ∃ entries, m.toList.Perm entries ∧
      List.Forall₂ (EntryRel names V) entries m'.toList := by
  have hPartner : ∀ entry' : {entry' // entry' ∈ m'.toList}, ∃ entry : K × A,
      m[entry.1]? = some entry.2 ∧ EntryRel names V entry entry'.val := by
    rintro ⟨⟨l', v'⟩, hMem⟩
    have hEntry := ExtTreeMap.mem_toList_iff_getElem?_eq_some.mp hMem
    obtain ⟨l, hSame⟩ := hMatches.named' hEntry
    rcases hMatches.lookup hSame with ⟨-, hNone'⟩ | ⟨v, w', hSome, hSome', hValue⟩
    · rw [hEntry] at hNone'
      cases hNone'
    · obtain rfl := Option.some.inj (hEntry.symm.trans hSome')
      exact ⟨(l, v), hSome, hSame, hValue⟩
  choose partner hLookup hRel using hPartner
  refine ⟨m'.toList.attach.map partner, ?_, ?_⟩
  · have hInjective : Function.Injective partner := by
      rintro ⟨⟨l', v'⟩, hMem⟩ ⟨⟨n', w'⟩, hMem'⟩ hEq
      have hKey : l' = n' :=
        (names.unique (hRel _).1 (hRel _).1).mp (congrArg Prod.fst hEq)
      subst hKey
      rw [ExtTreeMap.mem_toList_iff_getElem?_eq_some] at hMem hMem'
      obtain rfl := Option.some.inj (hMem.symm.trans hMem')
      rfl
    rw [List.perm_ext_iff_of_nodup (toList_nodup m)
      ((List.nodup_attach.mpr (toList_nodup m')).map hInjective)]
    rintro ⟨l, v⟩
    rw [ExtTreeMap.mem_toList_iff_getElem?_eq_some, List.mem_map]
    constructor
    · intro hEntry
      obtain ⟨l', hSame⟩ := hMatches.named hEntry
      rcases hMatches.lookup hSame with ⟨hNone, -⟩ | ⟨w, w', hSome, hSome', -⟩
      · rw [hEntry] at hNone
        cases hNone
      · have hMem := ExtTreeMap.mem_toList_iff_getElem?_eq_some.mpr hSome'
        refine ⟨⟨(l', w'), hMem⟩, List.mem_attach _ _, ?_⟩
        have hKey := (names.unique (hRel ⟨_, hMem⟩).1 hSame).mpr rfl
        have hValue := hLookup ⟨_, hMem⟩
        rw [hKey, hEntry] at hValue
        exact Prod.ext hKey (Option.some.inj hValue).symm
    · rintro ⟨entry', -, hEntry⟩
      have hFound := hLookup entry'
      rwa [hEntry] at hFound
  · have hAll : List.Forall₂ (EntryRel names V) (m'.toList.attach.map partner)
        (m'.toList.attach.map Subtype.val) := by
      rw [List.forall₂_map_left_iff, List.forall₂_map_right_iff, List.forall₂_same]
      exact fun entry' _ => hRel entry'
    rwa [List.attach_map_subtype_val] at hAll

end Maps

/-! ## Fallible computations -/

section Agreement

variable {P A B C D : Type} {V : A → B → Prop} {W : C → D → Prop}

inductive Agree (V : A → B → Prop) : Except P A → Except P B → Prop
  | fails (failure : P) : Agree V (.error failure) (.error failure)
  | gives {a : A} {b : B} (related : V a b) : Agree V (.ok a) (.ok b)

theorem Agree.bind {x : Except P A} {y : Except P B} (hAgree : Agree V x y)
    {f : A → Except P C} {g : B → Except P D} (hNext : ∀ {a b}, V a b → Agree W (f a) (g b)) :
    Agree W (x >>= f) (y >>= g) := by
  cases hAgree with
  | fails failure => exact .fails failure
  | gives hRelated => exact hNext hRelated

/-- Two computations with the same result fail both or succeed both. -/
theorem outcome_cases {S S' : Type} {R : S → S' → Prop} {outcome : Except P A × S}
    {outcome' : Except P A × S'} (hResult : outcome.1 = outcome'.1)
    (hNext : R outcome.2 outcome'.2) :
    (∃ failure next next', outcome = (.error failure, next) ∧
        outcome' = (.error failure, next') ∧ R next next') ∨
      ∃ a next next', outcome = (.ok a, next) ∧ outcome' = (.ok a, next') ∧ R next next' := by
  obtain ⟨result, next⟩ := outcome
  obtain ⟨_, next'⟩ := outcome'
  obtain rfl := hResult
  cases result with
  | error failure => exact Or.inl ⟨failure, next, next', rfl, rfl, hNext⟩
  | ok a => exact Or.inr ⟨a, next, next', rfl, rfl, hNext⟩

/-- A computation agrees with itself. -/
theorem Agree.refl (x : Except P A) : Agree Eq x x := by
  cases x with
  | error failure => exact .fails failure
  | ok a => exact .gives rfl

end Agreement

end CipherCli.Library
