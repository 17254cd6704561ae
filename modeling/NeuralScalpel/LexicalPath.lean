/-
Lexical paths.

A path is a list of components, one of which means going up.  Read without a
file system, it leads so many levels up and then down through some names:

* `walk` — that place, from another place;
* `walk_eq` — a path leads from any place where it leads from here, after the
  levels it goes up have been taken off;
* `up_not_mem_walk` — the names do not go up;
* `walk_extends_iff` — when a path from a place leads on below that place.
-/
import Mathlib.Data.List.Induction

namespace LexicalPath

variable {α : Type}

/-- So many levels up, and then down through the names. -/
structure Place (α : Type) where
  ups : ℕ
  names : List α
  deriving DecidableEq, Repr

def Place.here : Place α := ⟨0, []⟩

variable [DecidableEq α] {up : α}

/-- Going up takes the last name off, if there is one. -/
def Place.step (up : α) (place : Place α) (c : α) : Place α :=
  if c ≠ up then ⟨place.ups, place.names ++ [c]⟩
  else if place.names = [] then ⟨place.ups + 1, []⟩
  else ⟨place.ups, place.names.dropLast⟩

/-- Where a path leads. -/
def walk (up : α) (start : Place α) (path : List α) : Place α := path.foldl (Place.step up) start

theorem walk_concat (start : Place α) (path : List α) (c : α) :
    walk up start (path ++ [c]) = (walk up start path).step up c := by
  simp [walk]

theorem walk_append (start : Place α) (path path' : List α) :
    walk up start (path ++ path') = walk up (walk up start path) path' := by
  simp [walk]

/-- A path leads from any place where it leads from here, after the levels it
goes up have been taken off. -/
theorem walk_eq (start : Place α) (path : List α) :
    walk up start path =
      ⟨start.ups + ((walk up .here path).ups - start.names.length),
        start.names.take (start.names.length - (walk up .here path).ups) ++
          (walk up .here path).names⟩ := by
  induction path using List.reverseRecOn with
  | nil => simp [walk, Place.here]
  | append_singleton path c ih =>
    rw [walk_concat, walk_concat, ih]
    generalize walk up Place.here path = place
    obtain ⟨k, names⟩ := place
    obtain ⟨j, base⟩ := start
    unfold Place.step
    by_cases hc : c ≠ up
    · simp [hc]
    · rw [if_neg hc, if_neg hc]
      by_cases hnames : names = []
      · subst hnames
        by_cases hk : base.length ≤ k
        · -- the base is used up: the path goes on up
          have htake : base.length - k = 0 := by omega
          have htake' : base.length - (k + 1) = 0 := by omega
          simp [htake, htake']
          omega
        · -- one more name of the base is taken off
          have htake : base.take (base.length - k) ≠ [] := by
            intro hnil
            rcases List.take_eq_nil_iff.mp hnil with hlength | rfl
            · omega
            · exact hk (Nat.zero_le k)
          have hups : k - base.length = 0 := by omega
          have hups' : k + 1 - base.length = 0 := by omega
          have hdrop : (base.take (base.length - k)).dropLast =
              base.take (base.length - (k + 1)) := by
            rw [List.dropLast_eq_take, List.take_take, List.length_take]
            congr 1
            omega
          simp only [List.append_nil, if_neg htake, if_true, hups, hups', hdrop]
      · simp [hnames, List.dropLast_append_of_ne_nil]

theorem up_not_mem_walk {start : Place α} (hstart : up ∉ start.names) (path : List α) :
    up ∉ (walk up start path).names := by
  induction path using List.reverseRecOn with
  | nil => exact hstart
  | append_singleton path c ih =>
    rw [walk_concat]
    unfold Place.step
    split_ifs with hc hnames
    · intro hmem
      rcases List.mem_append.mp hmem with hmem | hmem
      · exact ih hmem
      · exact hc (List.mem_singleton.mp hmem).symm
    · exact List.not_mem_nil
    · exact fun hmem => ih (List.dropLast_subset _ hmem)

/-- A path from a place leads on below it iff it comes back down through as many
names of the place as it goes up. -/
theorem walk_extends_iff {start : Place α} {path rest : List α} :
    (walk up start path).names = start.names ++ rest ↔
      (walk up .here path).names =
        start.names.drop (start.names.length - (walk up .here path).ups) ++ rest := by
  rw [walk_eq]
  set n := start.names.length - (walk up Place.here path).ups
  have hsplit : start.names ++ rest =
      start.names.take n ++ (start.names.drop n ++ rest) := by
    rw [← List.append_assoc, List.take_append_drop]
  rw [hsplit]
  exact List.append_right_inj _

end LexicalPath
