import CrashMonitor.Lib.SharedMemory
import Mathlib.Tactic.SplitIfs

/-!
# Publication units under try-lock seqlocks

A mapping is divided into units. Each unit has a 32-bit generation word and
a payload; a writer claims the unit by moving the generation from an even
value to the next odd one with a compare-and-exchange, writes the payload,
and releases it by storing the next even value. Words that are published on
their own (`free`) belong to no unit.

The resource of a thread is the set of units it has claimed, each with its
odd token and the payload bytes as the thread has left them. `Owned` is the
global invariant: a unit is claimed by at most one thread, exactly when its
generation is odd; a claimed payload is what its owner wrote, and an
unclaimed one is what the last completed publication left.
-/

namespace CrashMonitor.Seqlock

open Bytes Interleave SharedMemory Function

/-- Where the units lie. The fields say that generation words, payloads and
free words do not overlap. -/
structure Layout (U : Type) where
  gen : U → Nat
  payload : U → Nat → Prop
  free : Nat → Prop
  gen_gen : ∀ {u v}, u ≠ v → gen u + 4 ≤ gen v ∨ gen v + 4 ≤ gen u
  gen_payload : ∀ {u v a}, payload v a → a < gen u ∨ gen u + 4 ≤ a
  payload_unique : ∀ {u v a}, payload u a → payload v a → u = v
  free_gen : ∀ {u a}, free a → a < gen u ∨ gen u + 4 ≤ a
  free_payload : ∀ {u a}, free a → ¬ payload u a

/-- The mapping and, for every unit, the memory at the moment its last
publication was completed. -/
structure Shared (U : Type) where
  mem : Mem
  committed : U → Mem

/-- A claimed unit: the odd token and the payload as the owner left it. -/
structure Claim where
  token : Nat
  view : Mem

/-- What a thread has claimed. -/
abbrev Claims (U : Type) := U → Option Claim

/-- A thread that claimed nothing. -/
def noClaims (U : Type) : Claims U := fun _ => none

variable {U ι : Type} (L : Layout U)

/-- An even value stored into a unit's generation word completes a
publication of that unit. -/
def Layout.Completes (o : MemOp) (u : U) : Prop := ∃ n, o = .store (L.gen u) (toLE 4 n) ∧ n % 2 = 0

/-- A step of the mapping, with the record of completed publications. -/
def Layout.step : Steps memSig (Shared U) := fun o s r s' =>
  memHandle o s.mem = (r, s'.mem) ∧
    ∀ u, (L.Completes o u → s'.committed u = s'.mem) ∧
      (¬ L.Completes o u → s'.committed u = s.committed u)

/-- Addresses a well-behaved producer never writes. -/
def Layout.Fixed (a : Nat) : Prop :=
  ¬ L.free a ∧ ∀ u, ¬ L.payload u a ∧ (a < L.gen u ∨ L.gen u + 4 ≤ a)

/-- The global invariant, for a mapping that started as `m₀`. -/
structure Layout.Owned (m₀ : Mem) (s : Shared U) (ρ : ι → Claims U) : Prop where
  fixed : ∀ a, L.Fixed a → s.mem a = m₀ a
  exclusive : ∀ i j u, (ρ i u).isSome → (ρ j u).isSome → i = j
  claimed : ∀ i u c, ρ i u = some c →
    s.mem.load (L.gen u) 4 = c.token ∧ c.token % 2 = 1 ∧ ∀ a, L.payload u a → s.mem a = c.view a
  unclaimed : ∀ u, (∀ i, ρ i u = none) →
    s.mem.load (L.gen u) 4 % 2 = 0 ∧ ∀ a, L.payload u a → s.mem a = s.committed u a

/-! ## How a write is seen by a unit -/

variable {L} {m₀ : Mem} {s s' : Shared U} {ρ : ι → Claims U} {i : ι}

/-- A write that avoids a unit's generation word and payload leaves both
unchanged. -/
structure Layout.Avoids (L : Layout U) (u : U) (m m' : Mem) : Prop where
  gen : m'.load (L.gen u) 4 = m.load (L.gen u) 4
  payload : ∀ a, L.payload u a → m' a = m a

/-- The invariant after a step that concerned no unit. -/
theorem Layout.Owned.frame_all (h : L.Owned m₀ s ρ) (hfixed : ∀ a, L.Fixed a → s'.mem a = s.mem a)
    (havoid : ∀ v, L.Avoids v s.mem s'.mem)
    (hcommit : ∀ v, s'.committed v = s.committed v) : L.Owned m₀ s' ρ := by
  refine ⟨fun a ha => (hfixed a ha).trans (h.fixed a ha), h.exclusive, ?_, ?_⟩
  · intro j v d hd
    obtain ⟨h1, h2, h3⟩ := h.claimed j v d hd
    exact ⟨(havoid v).gen.trans h1, h2, fun a ha => ((havoid v).payload a ha).trans (h3 a ha)⟩
  intro v hnone
  obtain ⟨h1, h2⟩ := h.unclaimed v hnone
  refine ⟨by rw [(havoid v).gen]; exact h1, fun a ha => ?_⟩
  rw [(havoid v).payload a ha, hcommit v]
  exact h2 a ha

/-- A write is invisible at every generation word and payload byte it does
not overlap. -/
theorem Layout.avoids_write (L : Layout U) {v m a bs}
    (hgen : ∀ k, a ≤ k → k < a + bs.length → k < L.gen v ∨ L.gen v + 4 ≤ k)
    (hpay : ∀ k, a ≤ k → k < a + bs.length → ¬ L.payload v k) : L.Avoids v m (m.write a bs) := by
  refine ⟨Mem.load_congr fun k h1 h2 => Mem.write_outside ?_, fun k hk => Mem.write_outside ?_⟩
  · by_contra hcon
    have := hgen k (by omega) (by omega)
    omega
  · by_contra hcon
    exact hpay k (by omega) (by omega) hk

theorem Layout.avoids_store_gen (L : Layout U) {u v m n} (hv : v ≠ u) :
    L.Avoids v m (m.store (L.gen u) 4 n) := by
  refine L.avoids_write ?_ ?_
  · intro k h1 h2
    rw [toLE_length] at h2
    have := L.gen_gen hv
    omega
  · intro k h1 h2 hk
    rw [toLE_length] at h2
    have := L.gen_payload (u := u) hk
    omega

/-- Only a store completes a publication, and only of the unit whose
generation word it names. -/
theorem Layout.not_completes_of_ne (L : Layout U) {a bs v} (h : a ≠ L.gen v ∨ bs.length ≠ 4) :
    ¬ L.Completes (.store a bs) v := by
  rintro ⟨n, heq, -⟩
  cases heq
  rcases h with h | h
  · exact h rfl
  · exact h (toLE_length 4 n)

theorem Layout.step_committed {o res}
    (h : L.step o s res s') (hn : ∀ v, ¬ L.Completes o v) (v : U) :
    s'.committed v = s.committed v := (h.2 v).2 (hn v)

/-- A write to free words concerns no unit. -/
theorem Layout.Owned.free_write (hinv : L.Owned m₀ s ρ) {a bs}
    (hfree : ∀ k, a ≤ k → k < a + bs.length → L.free k) (hmem : s'.mem = s.mem.write a bs)
    (hcommit : ∀ v, s'.committed v = s.committed v) : L.Owned m₀ s' ρ := by
  refine hinv.frame_all ?_ ?_ hcommit
  · intro b hb
    rw [hmem]
    refine Mem.write_outside ?_
    by_contra hcon
    exact hb.1 (hfree b (by omega) (by omega))
  · intro v
    rw [hmem]
    exact L.avoids_write (fun k h1 h2 => L.free_gen (hfree k h1 h2))
      fun k h1 h2 hk => L.free_payload (hfree k h1 h2) hk

/-- The invariant at the start: nothing claimed, every generation even, and
the initial memory taken as published. -/
theorem Layout.owned_init (L : Layout U) {m₀} (heven : ∀ u, m₀.load (L.gen u) 4 % 2 = 0) :
    L.Owned m₀ (⟨m₀, fun _ => m₀⟩ : Shared U) (fun _ : ι => noClaims U) := by
  refine ⟨fun _ _ => rfl, ?_, ?_, fun u _ => ⟨heven u, fun _ _ => rfl⟩⟩
  · intro i j u hi
    cases hi
  · intro i u c hc
    cases hc

/-! ## Rules that concern no unit -/

variable [DecidableEq ι]

/-- A thread's allowance for one call on the mapping. -/
abbrev Layout.Allowed (L : Layout U) (ι : Type) [DecidableEq ι] (m₀ : Mem)
    (r : Claims U) (o : MemOp) (post : o.Res → Claims U → Prop) : Prop :=
  Update L.step (L.Owned m₀ : Shared U → (ι → Claims U) → Prop) r o post

variable {r : Claims U}

/-- Loads are always allowed; inside a claimed payload they read the view. -/
theorem Layout.allowed_load (a width : Nat) : L.Allowed ι m₀ r (.load a width) fun v r' =>
      r' = r ∧ v < 256 ^ width ∧ ∀ u c, r u = some c →
          (∀ k, a ≤ k → k < a + width → L.payload u k) → v = c.view.load a width := by
  rintro s ρ i rfl hinv v s' hstep
  have hmem : s.mem.load a width = v ∧ s.mem = s'.mem := by simpa [memHandle] using hstep.1
  obtain ⟨rfl, hmem⟩ := hmem
  refine ⟨ρ i, ?_, rfl, Mem.load_lt _ _ _, ?_⟩
  · rw [update_eq_self]
    refine hinv.frame_all (fun a _ => by rw [hmem])
      (fun v => ⟨by rw [hmem], fun a _ => by rw [hmem]⟩) ?_
    refine Layout.step_committed hstep ?_
    rintro v ⟨n, heq, -⟩
    cases heq
  · intro u c hc hin
    obtain ⟨-, -, hview⟩ := hinv.claimed i u c hc
    exact Mem.load_congr fun k h1 h2 => hview k (hin k h1 h2)

theorem Layout.allowed_store_free {a bs} (hfree : ∀ k, a ≤ k → k < a + bs.length → L.free k) :
    L.Allowed ι m₀ r (.store a bs) fun _ r' => r' = r := by
  rintro s ρ i rfl hinv v s' hstep
  refine ⟨ρ i, ?_, rfl⟩
  rw [update_eq_self]
  refine hinv.free_write hfree (congrArg Prod.snd hstep.1).symm ?_
  refine Layout.step_committed hstep fun v => L.not_completes_of_ne ?_
  by_contra hcon
  push Not at hcon
  have := L.free_gen (u := v) (hfree a (Nat.le_refl a) (by omega))
  omega

theorem Layout.allowed_addFetch_free {a width delta}
    (hfree : ∀ k, a ≤ k → k < a + width → L.free k) :
    L.Allowed ι m₀ r (.addFetch a width delta) fun _ r' => r' = r := by
  rintro s ρ i rfl hinv v s' hstep
  refine ⟨ρ i, ?_, rfl⟩
  rw [update_eq_self]
  refine hinv.free_write (fun k h1 h2 => hfree k h1 (by simpa using h2))
    (congrArg Prod.snd hstep.1).symm ?_
  refine Layout.step_committed hstep ?_
  rintro v ⟨n, heq, -⟩
  cases heq

/-! ## Claims of one thread -/

variable [DecidableEq U]

/-- Replace the claim on one unit. -/
def setClaim (r : Claims U) (u : U) (c : Option Claim) : Claims U := update r u c

@[simp] theorem setClaim_self (r : Claims U) (u : U) (c : Option Claim) : setClaim r u c u = c := by
  simp [setClaim]

theorem setClaim_of_ne {r} {u v : U} (h : v ≠ u) (c : Option Claim) :
    setClaim r u c v = r v := by
  simp [setClaim, h]

@[simp] theorem setClaim_setClaim (r : Claims U) (u : U) (c d : Option Claim) :
    setClaim (setClaim r u c) u d = setClaim r u d := by
  simp [setClaim]

theorem setClaim_eq_self {r} {u : U} {c} (h : r u = c) : setClaim r u c = r := by
  simp [setClaim, ← h]

/-- The invariant after a step of thread `i` that concerned the unit `u`
only: the caller says what became of `u`, everything else is framed. -/
theorem Layout.Owned.frame (h : L.Owned m₀ s ρ) {u} {c : Option Claim}
    (hfree : ∀ j, j ≠ i → ρ j u = none) (hfixed : ∀ a, L.Fixed a → s'.mem a = s.mem a)
    (havoid : ∀ v, v ≠ u → L.Avoids v s.mem s'.mem)
    (hcommit : ∀ v, v ≠ u → s'.committed v = s.committed v)
    (hclaim : ∀ d, c = some d → s'.mem.load (L.gen u) 4 = d.token ∧
      d.token % 2 = 1 ∧ ∀ a, L.payload u a → s'.mem a = d.view a)
    (hrelease : c = none → s'.mem.load (L.gen u) 4 % 2 = 0 ∧
      ∀ a, L.payload u a → s'.mem a = s'.committed u a) :
    L.Owned m₀ s' (update ρ i (setClaim (ρ i) u c)) := by
  have hother : ∀ j v, v ≠ u → update ρ i (setClaim (ρ i) u c) j v = ρ j v := by
    intro j v hv
    by_cases hj : j = i
    · subst hj
      rw [update_self, setClaim_of_ne hv]
    · rw [update_of_ne hj]
  have hself : ∀ j, update ρ i (setClaim (ρ i) u c) j u =
      if j = i then c else none := by
    intro j
    by_cases hj : j = i
    · subst hj
      rw [update_self, setClaim_self, if_pos rfl]
    · rw [update_of_ne hj, hfree j hj, if_neg hj]
  refine ⟨fun a ha => (hfixed a ha).trans (h.fixed a ha), ?_, ?_, ?_⟩
  · intro j k v hj hk
    by_cases hv : v = u
    · subst hv
      rw [hself] at hj hk
      split_ifs at hj hk with h1 h2
      · exact h1.trans h2.symm
      · cases hk
      · cases hj
      · cases hj
    · rw [hother _ _ hv] at hj hk
      exact h.exclusive j k v hj hk
  · intro j v d hd
    by_cases hv : v = u
    · subst hv
      rw [hself] at hd
      split_ifs at hd with h1
      exact hclaim d hd
    · rw [hother _ _ hv] at hd
      obtain ⟨h1, h2, h3⟩ := h.claimed j v d hd
      have hav := havoid v hv
      exact ⟨hav.gen.trans h1, h2, fun a ha => (hav.payload a ha).trans (h3 a ha)⟩
  · intro v hnone
    by_cases hv : v = u
    · subst hv
      have hi := hnone i
      rw [hself, if_pos rfl] at hi
      exact hrelease hi
    · have hnone' : ∀ j, ρ j v = none := fun j => by
        rw [← hother j v hv]
        exact hnone j
      obtain ⟨h1, h2⟩ := h.unclaimed v hnone'
      have hav := havoid v hv
      refine ⟨by rw [hav.gen]; exact h1, fun a ha => ?_⟩
      rw [hav.payload a ha, hcommit v hv]
      exact h2 a ha

/-! ## Rules for a unit -/

/-- A claimed payload may be written. -/
theorem Layout.allowed_store {u c} (hc : r u = some c) {a bs}
    (hin : ∀ k, a ≤ k → k < a + bs.length → L.payload u k) :
    L.Allowed ι m₀ r (.store a bs) fun _ r' =>
      r' = setClaim r u (some ⟨c.token, c.view.write a bs⟩) := by
  rintro s ρ i rfl hinv v s' hstep
  have hmem : s'.mem = s.mem.write a bs := (congrArg Prod.snd hstep.1).symm
  have hcommit := Layout.step_committed hstep fun v => L.not_completes_of_ne <| by
      -- a four-byte store that starts in a payload misses every generation
      by_contra hcon
      push Not at hcon
      have := L.gen_payload (u := v) (hin a (Nat.le_refl a) (by omega))
      omega
  obtain ⟨htok, hodd, hview⟩ := hinv.claimed i u c hc
  refine ⟨_, hinv.frame (u := u) ?_ ?_ ?_ (fun v _ => hcommit v) ?_ ?_, rfl⟩
  · intro j hj
    by_contra hcon
    exact hj (hinv.exclusive j i u (Option.isSome_iff_ne_none.mpr hcon) (by rw [hc]; rfl))
  · intro b hb
    rw [hmem]
    refine Mem.write_outside ?_
    by_contra hcon
    exact (hb.2 u).1 (hin b (by omega) (by omega))
  · intro v hv
    rw [hmem]
    exact L.avoids_write (fun k h1 h2 => L.gen_payload (hin k h1 h2))
      fun k h1 h2 hk => hv (L.payload_unique hk (hin k h1 h2))
  · rintro d hd
    cases hd
    have hav : s'.mem.load (L.gen u) 4 = s.mem.load (L.gen u) 4 := by
      rw [hmem]
      refine Mem.load_congr fun k h1 h2 => Mem.write_outside ?_
      by_contra hcon
      have := L.gen_payload (u := u) (hin k (by omega) (by omega))
      omega
    refine ⟨hav.trans htok, hodd, fun b hb => ?_⟩
    rw [hmem]
    simp only [Mem.write, hview b hb]
  · intro h
    cases h

/-- A successful compare-and-exchange from an even value claims the unit:
nobody else can hold it, and its payload is then frozen to others. -/
theorem Layout.allowed_cas (u : U) {expected} (heven : expected % 2 = 0) :
    L.Allowed ι m₀ r (.cas (L.gen u) 4 expected (expected + 1)) fun ok r' =>
      (ok = true ∧ expected < 2 ^ 32 ∧
        ∃ view, r' = setClaim r u (some ⟨expected + 1, view⟩)) ∨ (ok = false ∧ r' = r) := by
  rintro s ρ i rfl hinv ok s' hstep
  have hcommit := Layout.step_committed hstep (by
    rintro v ⟨n, heq, -⟩
    cases heq)
  by_cases hload : s.mem.load (L.gen u) 4 = expected
  · have hmem : true = ok ∧ s.mem.store (L.gen u) 4 (expected + 1) = s'.mem := by
      simpa [memHandle, hload] using hstep.1
    obtain ⟨rfl, hmem⟩ := hmem
    have hlt : expected < 2 ^ 32 := by
      have := Mem.load_lt s.mem (L.gen u) 4
      omega
    -- an even generation means that no thread holds the unit
    have hnone : ∀ j, ρ j u = none := by
      intro j
      by_contra hcon
      obtain ⟨c, hc⟩ := Option.ne_none_iff_exists'.mp hcon
      obtain ⟨htok, hodd, -⟩ := hinv.claimed j u c hc
      omega
    refine ⟨setClaim (ρ i) u (some ⟨expected + 1, s.mem⟩),
      hinv.frame (fun j _ => hnone j) ?_ ?_ (fun v _ => hcommit v) ?_ ?_, .inl ⟨rfl, hlt, _, rfl⟩⟩
    · intro a ha
      rw [← hmem]
      exact Mem.write_outside (by exact (ha.2 u).2)
    · intro v hv
      rw [← hmem]
      exact L.avoids_store_gen hv
    · rintro d hd
      cases hd
      refine ⟨?_, by simp only; omega, fun a ha => ?_⟩
      · rw [← hmem, Mem.load_store_self]
        exact Nat.mod_eq_of_lt (by omega)
      rw [← hmem]
      exact Mem.write_outside (by exact L.gen_payload ha)
    · intro h
      cases h
  · have hmem : false = ok ∧ s.mem = s'.mem := by simpa [memHandle, hload] using hstep.1
    obtain ⟨rfl, hmem⟩ := hmem
    refine ⟨ρ i, ?_, .inr ⟨rfl, rfl⟩⟩
    rw [update_eq_self]
    exact hinv.frame_all (fun a _ => by rw [hmem])
      (fun v => ⟨by rw [hmem], fun a _ => by rw [hmem]⟩) hcommit

/-- Storing the next even generation releases a claimed unit and makes its
payload the last completed publication. -/
theorem Layout.allowed_release {u c} (hc : r u = some c) :
    L.Allowed ι m₀ r (.store (L.gen u) (toLE 4 (c.token + 1))) fun _ r' =>
      r' = setClaim r u none := by
  rintro s ρ i rfl hinv v s' hstep
  have hmem : s'.mem = s.mem.store (L.gen u) 4 (c.token + 1) := (congrArg Prod.snd hstep.1).symm
  obtain ⟨htok, hodd, hview⟩ := hinv.claimed i u c hc
  refine ⟨_, hinv.frame (u := u) ?_ ?_ ?_ ?_ ?_ ?_, rfl⟩
  · intro j hj
    by_contra hcon
    exact hj (hinv.exclusive j i u (Option.isSome_iff_ne_none.mpr hcon) (by rw [hc]; rfl))
  · intro a ha
    rw [hmem]
    exact Mem.write_outside (by exact (ha.2 u).2)
  · intro v hv
    rw [hmem]
    exact L.avoids_store_gen hv
  · intro v hv
    refine (hstep.2 v).2 (L.not_completes_of_ne (.inl ?_))
    have := L.gen_gen hv
    omega
  · intro d hd
    cases hd
  · intro _
    have hdone : s'.committed u = s'.mem := (hstep.2 u).1 ⟨c.token + 1, rfl, by omega⟩
    refine ⟨?_, fun a _ => by rw [hdone]⟩
    rw [hmem, Mem.load_store_self]
    omega

end CrashMonitor.Seqlock
