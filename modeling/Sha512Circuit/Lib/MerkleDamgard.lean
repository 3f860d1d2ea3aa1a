/-
Iterated functions: two runs of one step function that end in the same value either collide, at the
same distance from their ends, or one of them is the tail of the other. Over input lists none of
which ends another, different runs have one result exactly if they collide.
-/
import Mathlib.Data.List.Infix

namespace MerkleDamgard

variable {S B : Type*} {f : S → B → S} {s s' : S} {l l' : List B}

/-- Two runs collide: before a common tail `rest`, the step function was given two different inputs
and returned one value. -/
def Collision (f : S → B → S) (s s' : S) (l l' : List B) : Prop :=
  ∃ (done done' : List B) (b b' : B) (rest : List B),
    l = done ++ b :: rest ∧ l' = done' ++ b' :: rest ∧
    (done.foldl f s, b) ≠ (done'.foldl f s', b') ∧ f (done.foldl f s) b = f (done'.foldl f s') b'

/-- A common last input keeps a collision. -/
theorem Collision.append (h : Collision f s s' l l') (b : B) : Collision f s s' (l ++ [b]) (l' ++ [b]) := by
  obtain ⟨done, done', c, c', rest, rfl, rfl, hne, hf⟩ := h
  exact ⟨done, done', c, c', rest ++ [b], by simp, by simp, hne, hf⟩

/-- What collides agrees from there on. -/
theorem Collision.foldl_eq (h : Collision f s s' l l') : l.foldl f s = l'.foldl f s' := by
  obtain ⟨done, done', c, c', rest, rfl, rfl, -, hf⟩ := h
  rw [List.foldl_append, List.foldl_append, List.foldl_cons, List.foldl_cons, hf]

/-- Going back from a common result: as long as the inputs of the last steps agree, so do the results
before them. -/
theorem collision_or_tail (h : l.foldl f s = l'.foldl f s') :
    Collision f s s' l l' ∨ (∃ done, l' = done ++ l ∧ s = done.foldl f s') ∨
      ∃ done, l = done ++ l' ∧ s' = done.foldl f s := by
  induction l using List.reverseRecOn generalizing l' with
  | nil => exact .inr (.inl ⟨l', by simp, h⟩)
  | append_singleton l b ih =>
    cases l' using List.reverseRecOn with
    | nil => exact .inr (.inr ⟨l ++ [b], by simp, h.symm⟩)
    | append_singleton l' b' =>
      simp only [List.foldl_append, List.foldl_cons, List.foldl_nil] at h
      by_cases hin : (l.foldl f s, b) = (l'.foldl f s', b')
      · obtain ⟨hs, rfl⟩ := Prod.mk.inj hin
        rcases ih hs with hc | ⟨done, rfl, hd⟩ | ⟨done, rfl, hd⟩
        · exact .inl (hc.append b)
        · exact .inr (.inl ⟨done, by simp, hd⟩)
        · exact .inr (.inr ⟨done, by simp, hd⟩)
      · exact .inl ⟨l, l', b, b', [], rfl, rfl, hin, h⟩

/-- Runs over inputs of which neither ends the other meet only where they are one run or collide. -/
theorem foldl_eq_iff_collision (hl : l <:+ l' → l = l') (hl' : l' <:+ l → l' = l) :
    l.foldl f s = l'.foldl f s' ↔ s = s' ∧ l = l' ∨ Collision f s s' l l' := by
  constructor
  · intro h
    rcases collision_or_tail h with hc | ⟨done, hd, hs⟩ | ⟨done, hd, hs⟩
    · exact .inr hc
    -- a tail is the whole run, from the same value
    · obtain rfl := hl ⟨done, hd.symm⟩
      obtain rfl := List.self_eq_append_left.1 hd
      exact .inl ⟨hs, rfl⟩
    · obtain rfl := hl' ⟨done, hd.symm⟩
      obtain rfl := List.self_eq_append_left.1 hd
      exact .inl ⟨hs.symm, rfl⟩
  · rintro (⟨rfl, rfl⟩ | hc)
    · rfl
    · exact hc.foldl_eq

end MerkleDamgard
