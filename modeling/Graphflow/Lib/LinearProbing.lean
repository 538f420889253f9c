import Mathlib.Data.Finset.Card
import Mathlib.Data.Nat.ModEq
import Mathlib.Tactic.Common

/-!
# Linear probing

A table of `n` slots that holds the entries `0, 1, …, c - 1`.  An entry is in the first slot from
its home on, in the order of the slots, that was free when it was put there; slots are never freed.
-/

namespace Graphflow.Lib

/-- The slot after a number of steps. -/
def probe (n home d : ℕ) : ℕ := (home + d) % n

/-- All slots that a probe from the home passes are occupied. -/
def PassesOver (n : ℕ) (slots : ℕ → Option ℕ) (home d : ℕ) : Prop :=
  ∀ d' < d, (slots (probe n home d')).isSome = true

structure Probed (n : ℕ) (slots : ℕ → Option ℕ) (home : ℕ → ℕ) (c : ℕ) : Prop where
  lt : ∀ s < n, ∀ i, slots s = some i → i < c
  inj : ∀ s < n, ∀ s' < n, ∀ i, slots s = some i → slots s' = some i → s = s'
  placed : ∀ i < c, ∃ d < n, slots (probe n (home i) d) = some i ∧ PassesOver n slots (home i) d

variable {n c home₀ d k s i : ℕ} {slots slots' : ℕ → Option ℕ} {home home' : ℕ → ℕ}

theorem probe_lt (hn : 0 < n) (home d : ℕ) : probe n home d < n := Nat.mod_lt _ hn

theorem probe_zero (hhome : home₀ < n) : probe n home₀ 0 = home₀ := Nat.mod_eq_of_lt hhome

/-- The next slot; behind the last one comes the first. -/
theorem probe_succ (hn : 0 < n) (home d : ℕ) :
    probe n home (d + 1) = if n ≤ probe n home d + 1 then 0 else probe n home d + 1 := by
  have hlt := probe_lt hn home d
  have hmod : probe n home (d + 1) = (probe n home d + 1) % n := by
    rw [probe, probe, Nat.mod_add_mod, Nat.add_assoc]
  rw [hmod]
  split_ifs with hle
  · obtain heq : probe n home d + 1 = n := by omega
    rw [heq, Nat.mod_self]
  · exact Nat.mod_eq_of_lt (Nat.not_le.mp hle)

/-- A probe reaches every slot. -/
theorem exists_probe_eq (hs : s < n) (home : ℕ) : ∃ d < n, probe n home d = s := by
  have hn : 0 < n := Nat.lt_of_le_of_lt (Nat.zero_le s) hs
  refine ⟨(s + (n - home % n)) % n, Nat.mod_lt _ hn, ?_⟩
  have hlt := Nat.mod_lt home hn
  rw [probe, Nat.add_mod_mod, ← Nat.mod_add_mod,
    show home % n + (s + (n - home % n)) = s + n by omega, Nat.add_mod_right, Nat.mod_eq_of_lt hs]

theorem PassesOver.succ (h : PassesOver n slots home₀ d)
    (hd : (slots (probe n home₀ d)).isSome = true) : PassesOver n slots home₀ (d + 1) := by
  intro d' hd'
  rcases Nat.lt_succ_iff_lt_or_eq.mp hd' with hlt | rfl
  · exact h d' hlt
  · exact hd

theorem PassesOver.mono (h : PassesOver n slots home₀ d)
    (hslots : ∀ s, (slots s).isSome = true → (slots' s).isSome = true) :
    PassesOver n slots' home₀ d :=
  fun d' hd' ↦ hslots _ (h d' hd')

namespace Probed

/-- An empty table. -/
theorem empty (n : ℕ) (home : ℕ → ℕ) : Probed n (fun _ ↦ none) home 0 where
  lt _ _ _ h := by cases h
  inj _ _ _ _ _ h := by cases h
  placed i hi := absurd hi (Nat.not_lt_zero i)

/-- Fewer entries than slots leave a slot free. -/
theorem exists_eq_none (h : Probed n slots home c) (hc : c < n) : ∃ s < n, slots s = none := by
  by_contra hall
  push Not at hall
  have hsome : ∀ s < n, ∃ i, slots s = some i :=
    fun s hs ↦ Option.ne_none_iff_exists'.mp (hall s hs)
  choose! f hf using hsome
  have hcard := Finset.card_le_card_of_injOn (s := Finset.range n) (t := Finset.range c) f
    (fun s hs ↦ by
      have hs' := Finset.mem_range.mp hs
      exact Finset.mem_coe.mpr (Finset.mem_range.mpr (h.lt s hs' _ (hf s hs'))))
    (fun s hs s' hs' heq ↦ by
      have hs₁ := Finset.mem_range.mp hs
      have hs₂ := Finset.mem_range.mp hs'
      exact h.inj s hs₁ s' hs₂ (f s) (hf s hs₁) (by rw [heq]; exact hf s' hs₂))
  rw [Finset.card_range, Finset.card_range] at hcard
  omega

/-- As many entries as slots leave no slot free. -/
theorem isSome_of_full (h : Probed n slots home c) (hc : n ≤ c) (hs : s < n) :
    (slots s).isSome = true := by
  have hn : 0 < n := Nat.lt_of_le_of_lt (Nat.zero_le s) hs
  have hslot : ∀ i < c, ∃ s < n, slots s = some i := by
    intro i hi
    obtain ⟨d, -, hslot, -⟩ := h.placed i hi
    exact ⟨_, probe_lt hn _ d, hslot⟩
  choose! f hlt hf using hslot
  have hinj : Set.InjOn f (Finset.range c) := by
    intro i hi j hj heq
    have hi' := hf i (Finset.mem_range.mp hi)
    rw [heq, hf j (Finset.mem_range.mp hj)] at hi'
    exact (Option.some.inj hi').symm
  have hsubset : (Finset.range c).image f ⊆ Finset.range n := by
    intro s' hs'
    obtain ⟨i, hi, rfl⟩ := Finset.mem_image.mp hs'
    exact Finset.mem_range.mpr (hlt i (Finset.mem_range.mp hi))
  have himage : (Finset.range c).image f = Finset.range n := by
    apply Finset.eq_of_subset_of_card_le hsubset
    rwa [Finset.card_image_of_injOn hinj, Finset.card_range, Finset.card_range]
  obtain ⟨i, hi, rfl⟩ := Finset.mem_image.mp (himage ▸ Finset.mem_range.mpr hs)
  rw [hf i (Finset.mem_range.mp hi)]
  rfl

/-- A probe that has passed over occupied slots only has not yet been everywhere. -/
theorem lt_of_passesOver (h : Probed n slots home c) (hc : c < n)
    (hpasses : PassesOver n slots home₀ k) : k < n := by
  obtain ⟨s, hs, hnone⟩ := h.exists_eq_none hc
  obtain ⟨d, hd, rfl⟩ := exists_probe_eq hs home₀
  by_contra hk
  have hsome := hpasses d (lt_of_lt_of_le hd (Nat.not_lt.mp hk))
  rw [hnone] at hsome
  cases hsome

/-- An entry is not behind a free slot. -/
theorem exists_passed (h : Probed n slots home c) (hi : i < c)
    (hnone : slots (probe n (home i) k) = none) :
    ∃ d < k, slots (probe n (home i) d) = some i := by
  obtain ⟨d, -, hslot, hpasses⟩ := h.placed i hi
  refine ⟨d, ?_, hslot⟩
  rcases Nat.lt_trichotomy d k with hlt | rfl | hlt
  · exact hlt
  · rw [hslot] at hnone
    cases hnone
  · have hsome := hpasses k hlt
    rw [hnone] at hsome
    cases hsome

/-- One more entry, in the first free slot from its home on. -/
theorem insert (h : Probed n slots home c) (hd : d < n)
    (hnone : slots (probe n (home' c) d) = none) (hpasses : PassesOver n slots (home' c) d)
    (hhome : ∀ i < c, home' i = home i) :
    Probed n (Function.update slots (probe n (home' c) d) (some c)) home' (c + 1) := by
  have hkeeps : ∀ s i, slots s = some i →
      Function.update slots (probe n (home' c) d) (some c) s = some i := by
    intro s i hs
    rw [Function.update_of_ne, hs]
    rintro rfl
    rw [hnone] at hs
    cases hs
  have hcases : ∀ s i, Function.update slots (probe n (home' c) d) (some c) s = some i →
      s = probe n (home' c) d ∧ i = c ∨ slots s = some i := by
    intro s i hs
    by_cases heq : s = probe n (home' c) d
    · rw [heq, Function.update_self, Option.some.injEq] at hs
      exact Or.inl ⟨heq, hs.symm⟩
    · rw [Function.update_of_ne heq] at hs
      exact Or.inr hs
  have hsome : ∀ s, (slots s).isSome = true →
      (Function.update slots (probe n (home' c) d) (some c) s).isSome = true := by
    intro s hs
    obtain ⟨i, hi⟩ := Option.isSome_iff_exists.mp hs
    rw [hkeeps s i hi]
    rfl
  constructor
  · intro s hs i hi
    rcases hcases s i hi with ⟨-, rfl⟩ | hold
    · exact Nat.lt_succ_self i
    · exact Nat.lt_succ_of_lt (h.lt s hs i hold)
  · intro s hs s' hs' i hi hi'
    rcases hcases s i hi with ⟨rfl, rfl⟩ | hold
    · rcases hcases s' i hi' with ⟨rfl, -⟩ | hold'
      · rfl
      · exact absurd (h.lt s' hs' i hold') (Nat.lt_irrefl i)
    · rcases hcases s' i hi' with ⟨-, rfl⟩ | hold'
      · exact absurd (h.lt s hs i hold) (Nat.lt_irrefl i)
      · exact h.inj s hs s' hs' i hold hold'
  · intro i hi
    rcases Nat.lt_succ_iff_lt_or_eq.mp hi with hlt | rfl
    · obtain ⟨d', hd', hslot, hpasses'⟩ := h.placed i hlt
      rw [← hhome i hlt] at hslot hpasses'
      exact ⟨d', hd', hkeeps _ _ hslot, hpasses'.mono hsome⟩
    · exact ⟨d, hd, Function.update_self _ _ _, hpasses.mono hsome⟩

end Probed

end Graphflow.Lib
