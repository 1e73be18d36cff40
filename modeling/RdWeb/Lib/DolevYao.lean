import Mathlib.Data.List.Basic

/-!
# Messages an attacker can make

Messages as terms over perfect cryptography: signatures that carry what they sign, boxes that
one of two secret keys opens, and symmetric keys. An attacker takes apart and puts together what
it has seen. What it can make stays public as long as everything that is sent is.
-/

namespace DolevYao

/-- A term. A key belongs to an owner; a signing, a box and a symmetric key of one owner are
different keys. -/
inductive Term (Name Key : Type*)
  | name (n : Name)
  | verifyKey (k : Key)
  | signKey (k : Key)
  | boxPublic (k : Key)
  | boxSecret (k : Key)
  | symmetric (k : Key)
  | pair (first second : Term Name Key)
  | signed (k : Key) (content : Term Name Key)
  /-- Sealed with the box key of `k` for a public key. -/
  | boxed (k : Key) (theirs content : Term Name Key)
  deriving DecidableEq

variable {Name Key : Type*}

open Term

/-- What an attacker with some keys of its own makes of the terms it has seen. -/
inductive Derives (own : Key → Prop) (seen : List (Term Name Key)) : Term Name Key → Prop
  | seen {t : Term Name Key} : t ∈ seen → Derives own seen t
  | name (n : Name) : Derives own seen (name n)
  | verifyKey (k : Key) : Derives own seen (verifyKey k)
  | boxPublic (k : Key) : Derives own seen (boxPublic k)
  | signKey {k : Key} : own k → Derives own seen (signKey k)
  | boxSecret {k : Key} : own k → Derives own seen (boxSecret k)
  | symmetric {k : Key} : own k → Derives own seen (symmetric k)
  | pair {a b : Term Name Key} : Derives own seen a → Derives own seen b →
      Derives own seen (pair a b)
  | first {a b : Term Name Key} : Derives own seen (.pair a b) → Derives own seen a
  | second {a b : Term Name Key} : Derives own seen (.pair a b) → Derives own seen b
  | sign {k : Key} {content : Term Name Key} : Derives own seen (.signKey k) →
      Derives own seen content → Derives own seen (signed k content)
  | signedContent {k : Key} {content : Term Name Key} : Derives own seen (signed k content) →
      Derives own seen content
  | box {k : Key} {theirs content : Term Name Key} : Derives own seen (.boxSecret k) →
      Derives own seen content → Derives own seen (boxed k theirs content)
  | boxReverse {k other : Key} {content : Term Name Key} : Derives own seen (.boxSecret other) →
      Derives own seen content → Derives own seen (boxed k (.boxPublic other) content)
  | openOwn {k : Key} {theirs content : Term Name Key} :
      Derives own seen (boxed k theirs content) → Derives own seen (.boxSecret k) →
      Derives own seen content
  | openTheirs {k other : Key} {content : Term Name Key} :
      Derives own seen (boxed k (.boxPublic other) content) →
      Derives own seen (.boxSecret other) → Derives own seen content

/-- A policy: the keys that are lost, what the owners of the others sign, and what they seal. -/
structure Policy (Name Key : Type*) where
  lost : Key → Prop
  signs : Key → Term Name Key → Prop
  seals : Key → Term Name Key → Term Name Key → Prop
  /-- Nothing is sealed with a lost key or for one. -/
  seals_safe : ∀ k theirs content, seals k theirs content →
    ¬ lost k ∧ ∀ other, theirs = boxPublic other → ¬ lost other

/-- The term gives away nothing but lost keys, and what it contains of the others keeps to the
policy. -/
def Public (p : Policy Name Key) : Term Name Key → Prop
  | name _ | verifyKey _ | boxPublic _ => True
  | signKey k | boxSecret k | symmetric k => p.lost k
  | pair a b => Public p a ∧ Public p b
  | signed k content => Public p content ∧ (p.lost k ∨ p.signs k content)
  | boxed k theirs content => Public p content ∨ p.seals k theirs content

variable {own : Key → Prop} {seen : List (Term Name Key)} {p q : Policy Name Key}

/-- **Secrecy.** An attacker that has seen public terms only makes public terms only. -/
theorem Derives.isPublic (hown : ∀ k, own k → p.lost k) (hseen : ∀ t ∈ seen, Public p t)
    {t : Term Name Key} (h : Derives own seen t) : Public p t := by
  induction h with
  | seen hmem => exact hseen _ hmem
  | name | verifyKey | boxPublic => trivial
  | signKey hk | boxSecret hk | symmetric hk => exact hown _ hk
  | pair _ _ iha ihb => exact ⟨iha, ihb⟩
  | first _ ih => exact ih.1
  | second _ ih => exact ih.2
  | sign _ _ ihkey ihcontent => exact ⟨ihcontent, .inl ihkey⟩
  | signedContent _ ih => exact ih.1
  | box _ _ _ ih => exact .inl ih
  | boxReverse _ _ _ ih => exact .inl ih
  | openOwn _ _ ihbox ihkey =>
    rcases ihbox with hcontent | hseals
    · exact hcontent
    · exact absurd ihkey (p.seals_safe _ _ _ hseals).1
  | openTheirs _ _ ihbox ihkey =>
    rcases ihbox with hcontent | hseals
    · exact hcontent
    · exact absurd ihkey ((p.seals_safe _ _ _ hseals).2 _ rfl)

/-- A policy that allows more makes no term secret. -/
theorem Public.mono (hlost : ∀ k, p.lost k → q.lost k)
    (hsigns : ∀ k content, p.signs k content → q.signs k content)
    (hseals : ∀ k theirs content, p.seals k theirs content → q.seals k theirs content)
    {t : Term Name Key} (h : Public p t) : Public q t := by
  induction t with
  | name | verifyKey | boxPublic => trivial
  | signKey k | boxSecret k | symmetric k => exact hlost k h
  | pair a b iha ihb => exact ⟨iha h.1, ihb h.2⟩
  | signed k content ih => exact ⟨ih h.1, h.2.imp (hlost k) (hsigns k content)⟩
  | boxed k theirs content _ ih => exact h.imp ih (hseals k theirs content)

end DolevYao
