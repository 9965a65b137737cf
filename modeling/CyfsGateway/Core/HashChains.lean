import Mathlib

/-!
# Chains of hashes

A log keeps one root; every entry replaces it by the hash of the root and the
entry.  If none of the pairs hashed along two chains collide, equal roots after
equally many entries mean equal entries.
-/

namespace CyfsGateway.HashChains

variable {Root Entry : Type} {link : Root → Entry → Root} {start : Root}

def head (link : Root → Entry → Root) (start : Root) (entries : List Entry) : Root :=
  entries.foldl link start

/-- The pairs that are hashed along a chain. -/
def inputs (link : Root → Entry → Root) : Root → List Entry → List (Root × Entry)
  | _, [] => []
  | root, entry :: entries => (root, entry) :: inputs link (link root entry) entries

theorem inputs_append (start : Root) (entries more : List Entry) :
    inputs link start (entries ++ more) =
      inputs link start entries ++ inputs link (head link start entries) more := by
  induction entries generalizing start with
  | nil => rfl
  | cons entry entries ih =>
    rw [List.cons_append, inputs, ih, inputs, List.cons_append]
    rfl

/-- No two of the pairs hashed along two chains collide.  Nothing is asked of pairs that
neither chain hashes. -/
def NoCollision (link : Root → Entry → Root) (start : Root) (left right : List Entry) :
    Prop :=
  ∀ first ∈ inputs link start left, ∀ second ∈ inputs link start right,
    link first.1 first.2 = link second.1 second.2 → first = second

theorem NoCollision.init (hfree : NoCollision link start (left ++ [last]) (right ++ [other])) :
    NoCollision link start left right := by
  intro first hfirst second hsnd
  apply hfree
  · rw [inputs_append]
    exact List.mem_append_left _ hfirst
  · rw [inputs_append]
    exact List.mem_append_left _ hsnd

theorem NoCollision.last {last other}
    (hfree : NoCollision link start (left ++ [last]) (right ++ [other]))
    (hhead : head link start (left ++ [last]) = head link start (right ++ [other])) :
    head link start left = head link start right ∧ last = other := by
  rw [head, head, List.foldl_append, List.foldl_append] at hhead
  refine Prod.mk.inj (hfree (head link start left, last) ?_ (head link start right, other) ?_ hhead)
  · rw [inputs_append]
    exact List.mem_append_right _ List.mem_cons_self
  · rw [inputs_append]
    exact List.mem_append_right _ List.mem_cons_self

/-- The root commits to the entries. -/
theorem eq_of_head_eq (hlen : left.length = right.length)
    (hfree : NoCollision link start left right)
    (hhead : head link start left = head link start right) : left = right := by
  induction left using List.reverseRecOn generalizing right with
  | nil => exact (List.eq_nil_of_length_eq_zero hlen.symm).symm
  | append_singleton left last ih =>
    obtain ⟨rest, other, rfl⟩ : ∃ rest other, right = rest ++ [other] := by
      rcases List.eq_nil_or_concat right with rfl | ⟨rest, other, hright⟩
      · simp at hlen
      · exact ⟨rest, other, by rw [hright, List.concat_eq_append]⟩
    obtain ⟨hroot, rfl⟩ := hfree.last hhead
    rw [ih (by simpa using hlen) hfree.init hroot]

end CyfsGateway.HashChains
