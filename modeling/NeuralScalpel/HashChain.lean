/-
Chains of hashes.

A chain hashes a list of blocks one after the other, each with the hash of the
block before it as its parent.  With an injective hash function a hash says
what the whole prefix up to its block is:

* `mem_chain` — the hashes of a chain are the digests of the nonempty prefixes;
* `digest_injective` — different prefixes have different digests;
* `chain_disjoint_iff` — two chains share a hash exactly when they start with
  the same block.
-/
import Mathlib.Data.List.Infix
import Mathlib.Data.List.Basic

namespace HashChain

variable {η β : Type}

/-- The hashes of the blocks, from a parent hash on. -/
def chain (h : Option η → β → η) : Option η → List β → List η
  | _, [] => []
  | parent, b :: bs => h parent b :: chain h (some (h parent b)) bs

/-- The hash of the last of the blocks, from a parent hash on. -/
def digest (h : Option η → β → η) (parent : Option η) (bs : List β) : Option η :=
  bs.foldl (fun p b => some (h p b)) parent

variable {h : Option η → β → η}

@[simp] theorem chain_nil (parent : Option η) : chain h parent [] = [] := rfl

@[simp] theorem chain_cons (parent : Option η) (b : β) (bs : List β) :
    chain h parent (b :: bs) = h parent b :: chain h (some (h parent b)) bs := rfl

@[simp] theorem digest_nil (parent : Option η) : digest h parent [] = parent := rfl

@[simp] theorem digest_cons (parent : Option η) (b : β) (bs : List β) :
    digest h parent (b :: bs) = digest h (some (h parent b)) bs := rfl

theorem digest_concat (parent : Option η) (bs : List β) (b : β) :
    digest h parent (bs ++ [b]) = some (h (digest h parent bs) b) := by
  simp [digest]

theorem chain_append (parent : Option η) (bs bs' : List β) :
    chain h parent (bs ++ bs') = chain h parent bs ++ chain h (digest h parent bs) bs' := by
  induction bs generalizing parent with
  | nil => rfl
  | cons b bs ih => rw [List.cons_append, chain_cons, ih, chain_cons, digest_cons, List.cons_append]

/-- The hashes of blocks that are translated first. -/
theorem chain_map {α : Type} (g : α → β) (parent : Option η) (as : List α) :
    chain h parent (as.map g) = chain (fun p a => h p (g a)) parent as := by
  induction as generalizing parent with
  | nil => rfl
  | cons a as ih => rw [List.map_cons, chain_cons, ih, chain_cons]

/-- The last hash of a chain is the digest of its blocks. -/
theorem getLast?_chain (bs : List β) : (chain h none bs).getLast? = digest h none bs := by
  induction bs using List.reverseRecOn with
  | nil => rfl
  | append_singleton bs b _ =>
    rw [chain_append, chain_cons, chain_nil, List.getLast?_concat, digest_concat]

theorem mem_chain {y : η} {parent : Option η} {bs : List β} :
    y ∈ chain h parent bs ↔ ∃ p, p ≠ [] ∧ p <+: bs ∧ digest h parent p = some y := by
  induction bs generalizing parent with
  | nil =>
    simp only [chain_nil, List.not_mem_nil, List.prefix_nil, false_iff, not_exists, not_and]
    exact fun p hne hnil => absurd hnil hne
  | cons b bs ih =>
    rw [chain_cons, List.mem_cons, ih]
    constructor
    · rintro (rfl | ⟨p, _, hp, hy⟩)
      · exact ⟨[b], List.cons_ne_nil _ _, List.prefix_append [b] bs, rfl⟩
      · exact ⟨b :: p, List.cons_ne_nil _ _, List.cons_prefix_cons.mpr ⟨rfl, hp⟩, hy⟩
    · rintro ⟨p, hne, hp, hy⟩
      rcases p with _ | ⟨c, p⟩
      · exact absurd rfl hne
      · obtain ⟨rfl, hrest⟩ := List.cons_prefix_cons.mp hp
        rcases p with _ | ⟨d, p⟩
        · exact Or.inl (Option.some.inj hy).symm
        · exact Or.inr ⟨d :: p, List.cons_ne_nil _ _, hrest, hy⟩

/-! ### Injective hash functions -/

/-- Different lists of blocks have different digests. -/
theorem digest_injective (hinj : ∀ p b p' b', h p b = h p' b' → p = p' ∧ b = b')
    {bs bs' : List β} (heq : digest h none bs = digest h none bs') : bs = bs' := by
  induction bs using List.reverseRecOn generalizing bs' with
  | nil =>
    rcases List.eq_nil_or_concat' bs' with rfl | ⟨cs, c, rfl⟩
    · rfl
    · rw [digest_concat] at heq
      exact absurd heq (by simp)
  | append_singleton bs b ih =>
    rcases List.eq_nil_or_concat' bs' with rfl | ⟨cs, c, rfl⟩
    · rw [digest_concat] at heq
      exact absurd heq (by simp)
    · rw [digest_concat, digest_concat] at heq
      obtain ⟨hparent, rfl⟩ := hinj _ _ _ _ (Option.some.inj heq)
      rw [ih hparent]

/-- Two chains share no hash exactly when they do not start with the same
block. -/
theorem chain_disjoint_iff (hinj : ∀ p b p' b', h p b = h p' b' → p = p' ∧ b = b')
    {bs bs' : List β} :
    (chain h none bs).Disjoint (chain h none bs') ↔
      ∀ b ∈ bs.head?, ∀ b' ∈ bs'.head?, b ≠ b' := by
  constructor
  · rintro hdisj b hb b' hb' rfl
    obtain ⟨tail, rfl⟩ := List.head?_eq_some_iff.mp hb
    obtain ⟨tail', rfl⟩ := List.head?_eq_some_iff.mp hb'
    exact hdisj List.mem_cons_self List.mem_cons_self
  · -- a common hash is the digest of a common prefix, which has a first block
    intro hne y hy hy'
    obtain ⟨p, hp, hpre, hdig⟩ := mem_chain.mp hy
    obtain ⟨p', _, hpre', hdig'⟩ := mem_chain.mp hy'
    obtain rfl := digest_injective hinj (hdig.trans hdig'.symm)
    rcases p with _ | ⟨b, p⟩
    · exact hp rfl
    · obtain ⟨rest, rfl⟩ := hpre
      obtain ⟨rest', rfl⟩ := hpre'
      exact hne b rfl b rfl rfl

end HashChain
