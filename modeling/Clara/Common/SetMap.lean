import Clara.Common.Set

/-! A `set_t` over whole histories of calls, against the finite map it is meant to be. -/
namespace Clara

variable {δ : Type}

/-- A call that a thread makes on one set. -/
inductive SetCall (δ : Type)
  | insert (key : GlobalId) (data : δ)
  | remove (key : GlobalId)
  | find (key : GlobalId)

inductive SetAnswer (δ : Type)
  | returned (b : Bool)
  | found (data : Option δ)
  deriving DecidableEq

/-- The finite map a set should be: insertion never replaces, removal forgets. -/
def mapCall (m : GlobalId → Option δ) : SetCall δ → SetAnswer δ × (GlobalId → Option δ)
  | .insert key data =>
    if (m key).isSome then (.returned false, m)
    else (.returned true, Function.update m key (some data))
  | .remove key => (.returned (m key).isSome, Function.update m key none)
  | .find key => (.found (m key), m)

def mapRun (m : GlobalId → Option δ) :
    List (SetCall δ) → List (SetAnswer δ) × (GlobalId → Option δ)
  | [] => ([], m)
  | c :: cs => ((mapCall m c).1 :: (mapRun (mapCall m c).2 cs).1, (mapRun (mapCall m c).2 cs).2)

namespace CSet

def call (s : CSet δ) : SetCall δ → Option (SetAnswer δ × CSet δ)
  | .insert key data => (s.setInsert key data).map fun r => (.returned r.1, r.2)
  | .remove key => (s.setRemove key).map fun r => (.returned r.1, r.2)
  | .find key => (s.setFind key).map fun d => (.found d, s)

/-- `none` when a call touches freed memory. -/
def run (s : CSet δ) : List (SetCall δ) → Option (List (SetAnswer δ) × CSet δ)
  | [] => some ([], s)
  | c :: cs => (s.call c).bind fun r => (run r.2 cs).map fun q => (r.1 :: q.1, q.2)

/-- The data stored under a key, read through the tree and the heap. -/
def lookup (s : CSet δ) (key : GlobalId) : Option δ :=
  (rbFind s.heap s.tree key).bind fun item => (s.heap.cell item).map Item.data

/-- The history ran, gave the map's answers, freed no reachable item and left the map's
bindings in the tree. -/
def BehavesAsMap (heap : ItemHeap δ) (calls : List (SetCall δ)) : Prop :=
  ∃ s, (create heap).run calls = some ((mapRun (fun _ => none) calls).1, s) ∧ s.Live ∧
    ∀ key, s.lookup key = (mapRun (fun _ => none) calls).2 key

end CSet

/-- No `set_insert` of the history names a key that is present at that moment. -/
def InsertsAbsent (m : GlobalId → Option δ) : List (SetCall δ) → Prop
  | [] => True
  | c :: cs => (match c with | .insert key _ => m key = none | _ => True) ∧
    InsertsAbsent (mapCall m c).2 cs

namespace CSet

theorem call_map {s : CSet δ} {t : IdSet GlobalId δ} (hr : s.Represents t) (hd : t.damaged = false)
    {c : SetCall δ} (hc : match c with | .insert key _ => t.lookup key = none | _ => True) :
    ∃ s' t', s.call c = some ((mapCall t.lookup c).1, s') ∧ s'.Represents t' ∧
      t'.damaged = false ∧ t'.lookup = (mapCall t.lookup c).2 := by
  cases c with
  | insert key data =>
    have hk : key ∉ t := IdSet.not_mem_iff.mpr hc
    rcases setInsert_represents hr key data with ⟨_, ht⟩ | ⟨b, s', t', hs, ht, hr'⟩
    · simp [IdSet.setInsert, hd] at ht
    · obtain ⟨rfl, rfl⟩ : b = true ∧ t' = t.add key data := by
        simpa [IdSet.setInsert, hd, hk, eq_comm] using ht
      refine ⟨s', _, by simp [call, hs, mapCall, hc], hr', by simp [hk, hd], ?_⟩
      funext k
      simp [mapCall, hc, IdSet.lookup_add hk, Function.update_apply]
  | remove key =>
    rcases setRemove_represents hr key with ⟨_, ht⟩ | ⟨b, s', t', hs, ht, hr'⟩
    · simp [IdSet.setRemove, hd] at ht
    · obtain ⟨rfl, rfl⟩ : b = decide (key ∈ t) ∧ t' = t.erase key := by
        simpa [IdSet.setRemove, hd, eq_comm] using ht
      refine ⟨s', _, ?_, hr', by simp [hd], ?_⟩
      · simp only [call, hs, mapCall, Option.map_some]
        congr 3
        exact Bool.decide_coe _
      · funext k
        simp [mapCall, Function.update_apply]
  | find key =>
    refine ⟨s, t, ?_, hr, hd, rfl⟩
    simp [call, setFind_represents hr, IdSet.setFind, hd, mapCall]

/-- Induction over the history: every call keeps the set and the map together. -/
theorem run_map (calls : List (SetCall δ)) {s : CSet δ} {t : IdSet GlobalId δ} (hr : s.Represents t)
    (hd : t.damaged = false) (hc : InsertsAbsent t.lookup calls) :
    ∃ s' t', s.run calls = some ((mapRun t.lookup calls).1, s') ∧ s'.Represents t' ∧
      t'.damaged = false ∧ t'.lookup = (mapRun t.lookup calls).2 := by
  induction calls generalizing s t with
  | nil => exact ⟨s, t, rfl, hr, hd, rfl⟩
  | cons c cs ih =>
    obtain ⟨s₁, t₁, h₁, hr₁, hd₁, hm₁⟩ := call_map hr hd hc.1
    obtain ⟨s₂, t₂, h₂, hr₂, hd₂, hm₂⟩ := ih hr₁ hd₁ (hm₁ ▸ hc.2)
    rw [hm₁] at h₂ hm₂
    exact ⟨s₂, t₂, by simp [run, h₁, h₂, mapRun], hr₂, hd₂, hm₂⟩

theorem run_append (s : CSet δ) (cs cs' : List (SetCall δ)) :
    s.run (cs ++ cs') = (s.run cs).bind fun r =>
      (r.2.run cs').map fun q => (r.1 ++ q.1, q.2) := by
  induction cs generalizing s with
  | nil => simp [run]
  | cons c cs ih =>
    cases hc : s.call c with
    | none => simp [run, hc]
    | some r => simp [run, hc, ih, Option.map_bind, Function.comp_def, Option.bind_map]

end CSet

theorem InsertsAbsent.of_append {m : GlobalId → Option δ} {cs cs' : List (SetCall δ)}
    (h : InsertsAbsent m (cs ++ cs')) : InsertsAbsent m cs := by
  induction cs generalizing m with
  | nil => trivial
  | cons c cs ih => exact ⟨h.1, ih h.2⟩

/-- The first duplicate insertion of a history that has one. -/
theorem exists_duplicate {m : GlobalId → Option δ} {calls : List (SetCall δ)}
    (h : ¬ InsertsAbsent m calls) :
    ∃ pre key data rest, calls = pre ++ .insert key data :: rest ∧ InsertsAbsent m pre ∧
      (mapRun m pre).2 key ≠ none := by
  induction calls generalizing m with
  | nil => exact absurd trivial h
  | cons c cs ih =>
    by_cases hc : match c with | .insert key _ => m key = none | _ => True
    · obtain ⟨pre, key, data, rest, rfl, hp, hk⟩ := ih fun h' => h ⟨hc, h'⟩
      exact ⟨c :: pre, key, data, rest, rfl, ⟨hc, hp⟩, hk⟩
    · cases c with
      | insert key data => exact ⟨[], key, data, cs, rfl, trivial, hc⟩
      | remove key => exact absurd trivial hc
      | find key => exact absurd trivial hc

namespace CSet

/-- A set behaves as a finite map through a whole history exactly when no insertion names a
present key: such an insertion frees the stored item and leaves it in the tree. -/
theorem behavesAsMap_iff (heap : ItemHeap δ) (calls : List (SetCall δ)) :
    (∀ pre, pre <+: calls → BehavesAsMap heap pre) ↔ InsertsAbsent (fun _ => none) calls := by
  have hr := represents_create heap
  constructor
  · intro h
    by_contra hn
    obtain ⟨pre, key, data, rest, rfl, hp, hk⟩ := exists_duplicate hn
    obtain ⟨s, hrun, hlive, -⟩ := h (pre ++ [.insert key data]) ⟨rest, by simp⟩
    obtain ⟨s₁, t₁, h₁, hr₁, hd₁, hm₁⟩ := run_map pre hr rfl hp
    have hmem : key ∈ t₁ := by
      by_contra hno
      exact hk (hm₁ ▸ IdSet.not_mem_iff.mp hno)
    rw [run_append, h₁] at hrun
    rcases setInsert_represents hr₁ key data with ⟨_, ht⟩ | ⟨b, s₂, t₂, hs₂, ht₂, hr₂⟩
    · simp [IdSet.setInsert, hd₁] at ht
    · obtain ⟨rfl, rfl⟩ : b = false ∧ t₂ = t₁.add key data := by
        simpa [IdSet.setInsert, hd₁, hmem, eq_comm] using ht₂
      obtain rfl : s₂ = s := by
        have h₂ := hrun
        simp only [run, call, hs₂, Option.bind_some, Option.map_some] at h₂
        exact (Prod.mk.inj (Option.some.inj h₂)).2
      have hlive' := hr₂.live.mpr hlive
      simp [hmem] at hlive'
  · rintro h pre ⟨rest, rfl⟩
    obtain ⟨s, t, hs, hrs, hd, hm⟩ := run_map pre hr rfl h.of_append
    have hl := hrs.live.mp hd
    exact ⟨s, hs, hl, fun key => by rw [lookup, find_lookup hrs hl, hm]; rfl⟩

/-- Inserting key 5 twice frees the item that the tree keeps for it. -/
theorem not_behavesAsMap_duplicate :
    ¬ ∀ calls : List (SetCall ℕ), BehavesAsMap ⟨fun _ => none, 0, fun _ _ => rfl⟩ calls := by
  intro h
  obtain ⟨s, hs, hl, -⟩ := h [.insert 5 70, .insert 5 71]
  have hlive : ((create ⟨fun _ => none, 0, fun _ _ => rfl⟩ : CSet ℕ).run
      [.insert 5 70, .insert 5 71]).map (fun r => decide r.2.Live) = some false := by decide
  rw [hs] at hlive
  simp [hl] at hlive

end CSet

end Clara
