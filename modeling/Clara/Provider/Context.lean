import Clara.Provider.IdLists

/-! What the OpenCL library of the provider gets when a context is created: the properties, which
end at a zero, with the real id of the platform that they name, and the real ids of its devices. -/
namespace Clara.Provider

open Conc PProg

def platformProperties : (k : ℕ) → (id : Arg) → List Arg
  | 0, _ => [0]
  | k + 1, id => clContextPlatform :: id :: platformProperties k id

theorem length_platformProperties (k : ℕ) (id : Arg) :
    (platformProperties k id).length = 2 * k + 1 := by
  induction k with
  | zero => rfl
  | succ k ih =>
    rw [platformProperties, List.length_cons, List.length_cons, ih]
    omega

theorem platformProperties_ne_nil (k : ℕ) (id : Arg) : platformProperties k id ≠ [] := by
  cases k <;> exact List.cons_ne_nil _ _

theorem clContextPlatform_ne_zero : clContextPlatform ≠ 0 := by decide

variable {Cl : Type} {lib : OpenCl Cl}

section
variable {s : State Cl} {ptr id id₀ : Arg} {pre : List Arg} {rest : Bytes} {k fuel : ℕ}

/-- The value of a property is the entry behind its name. -/
theorem mem_behind {w : Arg} {ws : List Arg}
    (h : s.mem ptr = some (Bytes.words pre ++ (Bytes.words (w :: ws) ++ rest))) :
    s.mem ptr = some (Bytes.words (pre ++ [w]) ++ (Bytes.words ws ++ rest)) := by
  rw [h, words_middle, words_snoc]

theorem length_snoc (pre : List Arg) (w : Arg) : (pre ++ [w]).length = pre.length + 1 := by
  rw [List.length_append, List.length_singleton]

/-- The first loop comes to the zero with the platform, which every property names. -/
theorem contextPlatform_words (id₀ : Arg)
    (h : s.mem ptr = some (Bytes.words pre ++ (Bytes.words (platformProperties k id) ++ rest)))
    (hfuel : k < fuel) :
    contextPlatform ptr fuel pre.length id₀ s = .done s (if k = 0 then id₀ else id) := by
  induction k generalizing pre fuel id₀ with
  | zero =>
    obtain ⟨fuel, rfl⟩ := Nat.exists_eq_succ_of_ne_zero (Nat.ne_of_gt hfuel)
    rw [contextPlatform, bind_run, loadWord_middle h, Outcome.bind_done, if_pos rfl, if_pos rfl]
    rfl
  | succ k ih =>
    obtain ⟨fuel, rfl⟩ := Nat.exists_eq_succ_of_ne_zero (Nat.ne_of_gt (Nat.zero_lt_of_lt hfuel))
    have hvalue := mem_behind h
    have hnext := mem_behind hvalue
    have hload := loadWord_middle hvalue
    rw [length_snoc] at hload
    have hrest := ih id hnext (Nat.lt_of_succ_lt_succ hfuel)
    rw [length_snoc, length_snoc, ite_self] at hrest
    rw [contextPlatform, bind_run, loadWord_middle h, Outcome.bind_done,
      if_neg clContextPlatform_ne_zero, if_pos rfl, bind_run, hload, Outcome.bind_done, hrest,
      if_neg (Nat.succ_ne_zero k)]

/-- The second loop puts the real id in the place of every value, and leaves the rest. -/
theorem contextReplace_words (real : Arg)
    (h : s.mem ptr = some (Bytes.words pre ++ (Bytes.words (platformProperties k id) ++ rest)))
    (hfuel : k < fuel) :
    contextReplace ptr real fuel pre.length s =
      .done (s.withBlock ptr (Bytes.words (pre ++ platformProperties k real) ++ rest)) () := by
  induction k generalizing s pre fuel with
  | zero =>
    obtain ⟨fuel, rfl⟩ := Nat.exists_eq_succ_of_ne_zero (Nat.ne_of_gt hfuel)
    have hsame : s.mem ptr = some (Bytes.words (pre ++ platformProperties 0 real) ++ rest) := by
      rw [h, Bytes.words_append, List.append_assoc]
      rfl
    rw [contextReplace, bind_run, loadWord_middle h, Outcome.bind_done, if_pos rfl,
      State.withBlock_eq_self hsame]
    rfl
  | succ k ih =>
    obtain ⟨fuel, rfl⟩ := Nat.exists_eq_succ_of_ne_zero (Nat.ne_of_gt (Nat.zero_lt_of_lt hfuel))
    have hstore := store_middle real (mem_behind h)
    rw [length_snoc] at hstore
    have hrest := ih (State.withBlock_mem s ptr
      (Bytes.words (pre ++ [clContextPlatform] ++ [real]) ++
        (Bytes.words (platformProperties k id) ++ rest))) (Nat.lt_of_succ_lt_succ hfuel)
    rw [length_snoc, length_snoc, State.withBlock_withBlock] at hrest
    rw [contextReplace, bind_run, loadWord_middle h, Outcome.bind_done,
      if_neg clContextPlatform_ne_zero, if_pos rfl]
    show (store ptr (8 * (pre.length + 1)) (Bytes.word real) >>= fun _ => _) s = _
    rw [bind_run, hstore, Outcome.bind_done, hrest, List.append_assoc, List.append_assoc]
    rfl

/-- The platform is looked up by its global id, and its real id stands in the properties then. -/
theorem contextProperties_words {platform : Platform}
    (h : s.mem.Lists ptr (platformProperties (k + 1) id))
    (hfind : s.platforms.find? (fun p => p.globalId == id) = some platform) :
    ∃ mem, contextProperties ptr s = .done { s with mem := mem } platform ∧
      mem.Lists ptr (platformProperties (k + 1) platform.id) ∧ s.mem.Shaped mem ∧
      ∀ p, p ≠ ptr → mem p = s.mem p := by
  obtain ⟨rest, hrest⟩ := h (platformProperties_ne_nil _ _)
  have hall : s.mem ptr =
      some (Bytes.words [] ++ (Bytes.words (platformProperties (k + 1) id) ++ rest)) := hrest
  have hlen : (Bytes.words (platformProperties (k + 1) id) ++ rest).length =
      8 * (2 * (k + 1) + 1) + rest.length := by
    rw [List.length_append, Bytes.length_words, length_platformProperties]
  have hlen' : (Bytes.words (platformProperties (k + 1) platform.id) ++ rest).length =
      (Bytes.words (platformProperties (k + 1) id) ++ rest).length := by
    rw [hlen, List.length_append, Bytes.length_words, length_platformProperties]
  have hfuel : k + 1 < (Bytes.words (platformProperties (k + 1) id) ++ rest).length + 1 := by
    rw [hlen]
    omega
  have hfirst := contextPlatform_words 0 hall hfuel
  have hsecond := contextReplace_words platform.id hall hfuel
  rw [if_neg (Nat.succ_ne_zero k)] at hfirst
  refine ⟨_, ?_, fun _ => ⟨rest, State.withBlock_mem s ptr _⟩, .put hrest hlen',
    fun p hp => s.mem.put_of_ne hp _⟩
  rw [contextProperties, bind_run, get_run, Outcome.bind_done, hrest]
  show (contextPlatform ptr _ 0 0 >>= fun _ => _) s = _
  rw [bind_run]
  rw [List.length_nil] at hfirst hsecond
  rw [Option.getD_some, hfirst, Outcome.bind_done, bind_run, get_run, Outcome.bind_done]
  simp only [hfind]
  rw [bind_run, hsecond]
  rfl

end

structure Call.MakesContext (call : Call) (k : ℕ) (platform : Arg) (devices : List Arg) : Prop where
  f : call.f = .createContext
  properties : ∃ ptr, call.args[0]? = some ptr ∧
    call.mem.Lists ptr (platformProperties k platform)
  devices : call.Has 1 devices

/-- What the request for a context has to say to the handler: properties that all name the platform
`id`, and a list of devices. -/
structure AsksContext (s : State Cl) (argv : ℕ → Arg) (k : ℕ) (id : GlobalId)
    (devices : List GlobalId) : Prop where
  properties : s.mem.Lists (argv 1) (platformProperties (k + 1) id)
  count : (argv 2).toUInt32.toNat = devices.length
  small : devices.length < 2 ^ 31
  devices : s.mem.Lists (argv 3) devices
  apart : argv 1 ≠ argv 3
  errcode : argv 6 = 0 ∨ ∃ b, s.mem (argv 6) = some b ∧ 4 ≤ b.length

section
variable {s : State Cl} {argv : ℕ → Arg} {k : ℕ} {id : GlobalId} {ids : List GlobalId}
  {reals : List Arg} {platform : Platform}

theorem AsksContext.run (h : AsksContext s argv k id ids) (lib : OpenCl Cl)
    (hfind : s.platforms.find? (fun p => p.globalId == id) = some platform)
    (hmap : ids.map platform.realId = reals.map some) : ∃ mem,
      claraClCreateContext lib argv s =
        (callCl lib .createContext [argv 1, toUint (argv 2), argv 3, 0, 0] >>= fun r => do
          copyErrcode (argv 6) r.errcode
          pure r.ret) { s with mem := mem } ∧
      mem.Lists (argv 1) (platformProperties (k + 1) platform.id) ∧ mem.Lists (argv 3) reals ∧
      s.mem.Shaped mem := by
  obtain ⟨mem₁, hprops, hlist₁, hshaped₁, hkept⟩ := contextProperties_words h.properties hfind
  have hdevices : mem₁.Lists (argv 3) ids := by
    intro hne
    obtain ⟨rest, hrest⟩ := h.devices hne
    exact ⟨rest, by rw [hkept _ h.apart.symm, hrest]⟩
  obtain ⟨mem₂, hloop, hlist₂, hshaped₂, hkept₂⟩ :=
    contextDevices_apart (s := { s with mem := mem₁ }) hmap h.small hdevices
  have hlist : mem₂.Lists (argv 1) (platformProperties (k + 1) platform.id) := by
    intro hne
    obtain ⟨rest, hrest⟩ := hlist₁ hne
    exact ⟨rest, (hkept₂ _ h.apart).trans hrest⟩
  refine ⟨mem₂, ?_, hlist, hlist₂, hshaped₁.trans hshaped₂⟩
  rw [claraClCreateContext, bind_run, hprops, Outcome.bind_done, toNat_toUint, h.count, bind_run,
    hloop, Outcome.bind_done]

end

/-- The library gets the properties and the devices of the request, with the ids that it knows. -/
theorem AsksContext.handsOver {s : State (Cl × List Call)} {argv : ℕ → Arg} {k : ℕ}
    {id : GlobalId} {ids : List GlobalId} {reals : List Arg} {platform : Platform}
    (h : AsksContext s argv k id ids) (hlib : lib.KeepsBlocks)
    (hfind : s.platforms.find? (fun p => p.globalId == id) = some platform)
    (hmap : ids.map platform.realId = reals.map some) :
    ∃ s' ret call, claraClCreateContext lib.logged argv s = .done s' ret ∧
      s'.cl.2 = s.cl.2 ++ [call] ∧ call.MakesContext (k + 1) platform.id reals := by
  obtain ⟨mem, hrun, hprops, hdevices, hshaped⟩ := h.run lib.logged hfind hmap
  have hlen : reals.length = ids.length := by
    have hl := congrArg List.length hmap
    rw [List.length_map, List.length_map] at hl
    exact hl.symm
  obtain ⟨s', ret, hdone, hcl⟩ := copyErrcode_completes h.errcode
    (lib.call .createContext [argv 1, toUint (argv 2), argv 3, 0, 0] s.cl.1 mem).2.2
    { s with
      cl := ((lib.call .createContext [argv 1, toUint (argv 2), argv 3, 0, 0] s.cl.1 mem).1,
        s.cl.2 ++ [⟨.createContext, [argv 1, toUint (argv 2), argv 3, 0, 0], mem⟩])
      mem := (lib.call .createContext [argv 1, toUint (argv 2), argv 3, 0, 0] s.cl.1 mem).2.1 }
    (hshaped.trans (hlib _ _ _ _))
  refine ⟨s', ret, ⟨.createContext, [argv 1, toUint (argv 2), argv 3, 0, 0], mem⟩,
    hrun.trans hdone, ?_, rfl, ⟨argv 1, rfl, hprops⟩, ?_⟩
  · rw [hcl]
  · refine ⟨toUint (argv 2), argv 3, rfl, ?_, rfl, hdevices⟩
    rw [toNat_toUint, h.count, hlen]

end Clara.Provider
