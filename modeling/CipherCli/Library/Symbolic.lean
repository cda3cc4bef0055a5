import Mathlib.Data.Set.Insert

/-!
# Free terms for key derivations and Diffie-Hellman

Key derivation and MAC are free one-way functions. A Diffie-Hellman value is
the unordered pair of its two scalars; it can be computed by whoever has one of
the scalars and the public point of the other. What an observer can compute from
a set of terms is the inductive predicate `Derivable`.
-/

namespace CipherCli.Library

/-- Terms over public constants `C`; scalars and other secrets are numbered. -/
inductive Term (C : Type)
  | const (c : C)
  | secret (n : Nat)
  | scalar (n : Nat)
  | point (n : Nat)
  /-- The agreement of two scalars, the smaller number first. -/
  | agreement (a b : Nat)
  /-- The agreement of a scalar with a value that is no scalar's public point. -/
  | agreementWith (n : Nat) (other : Term C)
  | kdf (input salt info : Term C)
  | mac (key : Term C) (tag : UInt8)
  deriving DecidableEq, Repr

namespace Term

variable {C : Type}

/-- The agreement of the scalar `n` with a received public value. -/
def agree (n : Nat) : Term C → Term C
  | point m => agreement (min n m) (max n m)
  | other => agreementWith n other

theorem agree_comm (a b : Nat) : agree a (point b : Term C) = agree b (point a) := by
  simp only [agree, Nat.min_comm a, Nat.max_comm a]

theorem agree_of_ne_point {t : Term C} (hOther : ∀ m, t ≠ point m) (n : Nat) :
    agree n t = agreementWith n t := by
  cases t with
  | point m => exact absurd rfl (hOther m)
  | const | secret | scalar | agreement | agreementWith | kdf | mac => rfl

/-- Two scalars that agree on one value are the same, or each agreed with the other's point. -/
theorem agree_eq {n m : Nat} {t u : Term C} (hSame : agree n t = agree m u) :
    n = m ∨ t = point m := by
  by_cases hPoint : ∃ a, t = point a
  · obtain ⟨a, rfl⟩ := hPoint
    by_cases hPoint' : ∃ b, u = point b
    · obtain ⟨b, rfl⟩ := hPoint'
      obtain ⟨hMin, hMax⟩ := agreement.inj hSame
      by_cases hScalar : n = m
      · exact Or.inl hScalar
      · right
        congr 1
        omega
    · rw [agree_of_ne_point (not_exists.mp hPoint')] at hSame
      cases hSame
  · rw [agree_of_ne_point (not_exists.mp hPoint)] at hSame
    by_cases hPoint' : ∃ b, u = point b
    · obtain ⟨b, rfl⟩ := hPoint'
      cases hSame
    · rw [agree_of_ne_point (not_exists.mp hPoint')] at hSame
      exact Or.inl (agreementWith.inj hSame).1

end Term

/-- What can be computed from the terms `known` and the public constants. -/
inductive Derivable {C : Type} (known : Set (Term C)) : Term C → Prop
  | known {t : Term C} (h : t ∈ known) : Derivable known t
  | const (c : C) : Derivable known (.const c)
  | point {n : Nat} (h : Derivable known (.scalar n)) : Derivable known (.point n)
  | agree {n : Nat} {t : Term C} (hScalar : Derivable known (.scalar n))
      (hPublic : Derivable known t) : Derivable known (.agree n t)
  | kdf {input salt info : Term C} (hInput : Derivable known input) (hSalt : Derivable known salt)
      (hInfo : Derivable known info) : Derivable known (.kdf input salt info)
  | mac {key : Term C} (tag : UInt8) (hKey : Derivable known key) : Derivable known (.mac key tag)

end CipherCli.Library
