/-
Loops over an indexed store: which cells a loop leaves alone, and what a loop that writes disjoint
sets of cells leaves in each of them.
-/
import Mathlib.Data.List.Range
import Mathlib.Data.List.Nodup

namespace Loop

section Store

variable {σ α ι : Type*} (get : σ → ℕ → α) {f : σ → ι → σ} {W : ι → ℕ → Prop}

/-- A cell no iteration writes is unchanged by the loop. -/
theorem foldl_frame (hf : ∀ s i c, ¬ W i c → get (f s i) c = get s c) :
    ∀ (L : List ι) (s : σ) (c : ℕ), (∀ i ∈ L, ¬ W i c) → get (L.foldl f s) c = get s c
  | [], _, _, _ => rfl
  | i :: L, s, c, h => by
    rw [List.foldl_cons, foldl_frame hf L _ c fun j hj => h j (List.mem_cons_of_mem _ hj)]
    exact hf s i c (h i List.mem_cons_self)

/-- Iterations that write disjoint cells, and read only cells none of them writes, each leave
their own value. -/
theorem foldl_cell {R : ℕ → Prop} {v : ι → ℕ → α} (hf : ∀ s i c, ¬ W i c → get (f s i) c = get s c) :
    ∀ (L : List ι) (s₀ : σ), L.Nodup →
      (∀ i ∈ L, ∀ j ∈ L, ∀ c, W i c → W j c → i = j) → (∀ i ∈ L, ∀ c, W i c → ¬ R c) →
      (∀ s, (∀ c, R c → get s c = get s₀ c) → ∀ i ∈ L, ∀ c, W i c → get (f s i) c = v i c) →
      ∀ i ∈ L, ∀ c, W i c → get (L.foldl f s₀) c = v i c
  | [], _, _, _, _, _, i, hi, _, _ => by cases hi
  | a :: L, s₀, hnd, hdisj, hR, hval, i, hi, c, hc => by
    obtain ⟨ha, hnd⟩ := List.nodup_cons.1 hnd
    rw [List.foldl_cons]
    -- the first iteration's cells are left alone by the rest; the rest start from a store that still
    -- agrees with `s₀` on the cells they read
    rcases List.mem_cons.1 hi with rfl | hi
    · rw [foldl_frame get hf L _ c]
      · exact hval s₀ (fun _ _ => rfl) i List.mem_cons_self c hc
      · intro j hj hj'
        have := hdisj i List.mem_cons_self j (List.mem_cons_of_mem _ hj) c hc hj'
        exact ha (this ▸ hj)
    · refine foldl_cell hf L (f s₀ a) hnd
        (fun i hi j hj => hdisj i (List.mem_cons_of_mem _ hi) j (List.mem_cons_of_mem _ hj))
        (fun i hi => hR i (List.mem_cons_of_mem _ hi)) (fun s hs j hj c hc => ?_) i hi c hc
      refine hval s (fun r hr => ?_) j (List.mem_cons_of_mem _ hj) c hc
      rw [hs r hr, hf s₀ a r fun hw => hR a List.mem_cons_self r hw hr]

end Store

/-! ## Counted loops -/

section Counted

variable {σ : Type*}

/-- An invariant of `for i in a..a + n`, indexed by the iterations done. -/
theorem foldl_range'_inv {f : σ → ℕ → σ} (P : ℕ → σ → Prop) (a n : ℕ) {s : σ} (h0 : P 0 s)
    (hstep : ∀ k < n, ∀ s, P k s → P (k + 1) (f s (a + k))) : P n ((List.range' a n).foldl f s) := by
  induction n with
  | zero => exact h0
  | succ n ih =>
    rw [List.range'_concat, List.foldl_append, Nat.one_mul]
    exact hstep n (Nat.lt_succ_self n) _ (ih fun k hk => hstep k (by omega))

/-- An invariant of `for i in 0..n`. -/
theorem foldl_range_inv {f : σ → ℕ → σ} (P : ℕ → σ → Prop) (n : ℕ) {s : σ} (h0 : P 0 s)
    (hstep : ∀ k < n, ∀ s, P k s → P (k + 1) (f s k)) : P n ((List.range n).foldl f s) := by
  rw [List.range_eq_range']
  refine foldl_range'_inv P 0 n h0 fun k hk s hs => ?_
  rw [Nat.zero_add]
  exact hstep k hk s hs

/-- An invariant of `for (i, x) in xs.enumerate()`. -/
theorem foldl_zipIdx_inv {α : Type*} {f : σ → α × ℕ → σ} (P : ℕ → σ → Prop) (xs : List α) {s : σ} (h0 : P 0 s)
    (hstep : ∀ (k : ℕ) (hk : k < xs.length), ∀ s, P k s → P (k + 1) (f s (xs[k], k))) :
    P xs.length (xs.zipIdx.foldl f s) := by
  induction xs using List.reverseRecOn with
  | nil => exact h0
  | append_singleton xs x ih =>
    rw [List.zipIdx_append, List.foldl_append, List.length_append]
    have hx := hstep xs.length (by simp) _ (ih fun k hk s hs => by
      have := hstep k (by simp; omega) s hs
      rwa [List.getElem_append_left hk] at this)
    rw [List.getElem_concat_length rfl] at hx
    simpa using hx

end Counted

end Loop
