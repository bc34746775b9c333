import Clara.Provider.Translate

/-! The lists of ids that the handlers of the provider hand over to the OpenCL library: they stand in
the memory, and are to be translated there before the call. -/
namespace Clara.Provider

open Conc PProg

structure Call where
  f : ClFunction
  args : List Arg
  mem : Memory

variable {Cl : Type}

/-- The library with a record of the calls. -/
def OpenCl.logged (lib : OpenCl Cl) : OpenCl (Cl × List Call) where
  init := (lib.init, [])
  call f args cl mem :=
    let (cl', mem', r) := lib.call f args cl.1 mem
    ((cl', cl.2 ++ [⟨f, args, mem⟩]), mem', r)

/-- Every block of the one memory is in the other, and is as long as it was. -/
def Memory.Shaped (mem mem' : Memory) : Prop :=
  ∀ p b, mem p = some b → ∃ b', mem' p = some b' ∧ b'.length = b.length

/-- The library neither frees nor resizes a block that is not its own. -/
def OpenCl.KeepsBlocks (lib : OpenCl Cl) : Prop :=
  ∀ f args cl mem, Memory.Shaped mem (lib.call f args cl mem).2.1

namespace Memory
variable {mem mem' mem'' : Memory} {ptr : Arg} {b b' : Bytes}

theorem Shaped.refl (mem : Memory) : mem.Shaped mem := fun _ b h => ⟨b, h, rfl⟩

theorem Shaped.trans (h : mem.Shaped mem') (h' : mem'.Shaped mem'') : mem.Shaped mem'' := by
  intro p b hb
  obtain ⟨b', hb', hlen⟩ := h p b hb
  obtain ⟨b'', hb'', hlen'⟩ := h' p b' hb'
  exact ⟨b'', hb'', hlen'.trans hlen⟩

theorem Shaped.put (h : mem ptr = some b) (hlen : b'.length = b.length) :
    mem.Shaped (mem.put ptr (some b')) := by
  intro p x hx
  by_cases hp : p = ptr
  · subst hp
    obtain rfl := Option.some.inj (h.symm.trans hx)
    exact ⟨b', mem.put_self _ _, hlen⟩
  · exact ⟨x, by rw [mem.put_of_ne hp, hx], rfl⟩

/-- A list of words at an address; an empty one may be anywhere. -/
def Lists (mem : Memory) (ptr : Arg) (ws : List Arg) : Prop :=
  ws ≠ [] → ∃ rest, mem ptr = some (Bytes.words ws ++ rest)

theorem Lists.eq {ws vs : List Arg} (h : mem.Lists ptr ws) (h' : mem.Lists ptr vs)
    (hlen : ws.length = vs.length) : ws = vs := by
  by_cases hnil : ws = []
  · rw [hnil, List.length_nil] at hlen
    rw [hnil, List.length_eq_zero_iff.mp hlen.symm]
  · have hnil' : vs ≠ [] := by
      rintro rfl
      exact hnil (List.length_eq_zero_iff.mp hlen)
    obtain ⟨rest, hrest⟩ := h hnil
    obtain ⟨rest', hrest'⟩ := h' hnil'
    exact Bytes.words_inj hlen (Option.some.inj (hrest.symm.trans hrest'))

end Memory

section
variable {s : State Cl} {ptr : Arg} {ids reals : List Arg}

theorem Memory.Lists.shaped (h : s.mem.Lists ptr ids) (hne : ids ≠ [])
    (hlen : reals.length = ids.length) : ∃ rest, s.mem ptr = some (Bytes.words ids ++ rest) ∧
      s.mem.Shaped (s.withBlock ptr (Bytes.words reals ++ rest)).mem := by
  obtain ⟨rest, hrest⟩ := h hne
  refine ⟨rest, hrest, .put hrest ?_⟩
  rw [List.length_append, List.length_append, Bytes.length_words, Bytes.length_words, hlen]

/-- The list is translated in place, and whatever else stands in the memory stays there. -/
theorem translateList_run (hd : s.idMap.damaged = false)
    (hmap : ids.map s.idMap.lookup = reals.map some) (h : s.mem.Lists ptr ids)
    (hne : ids ≠ [] → ptr ≠ 0) : ∃ mem,
      mappingTranslateListToReal ptr ptr ids.length s = .done { s with mem := mem } ids.length ∧
        mem.Lists ptr reals ∧ s.mem.Shaped mem := by
  have hlen : reals.length = ids.length := by
    have hl := congrArg List.length hmap
    rw [List.length_map, List.length_map] at hl
    exact hl.symm
  by_cases hnil : ids = []
  · subst hnil
    refine ⟨s.mem, ?_, fun hreals => absurd (List.length_eq_zero_iff.mp hlen) hreals, .refl _⟩
    rw [mappingTranslateListToReal, if_pos (.inl rfl)]
    rfl
  · obtain ⟨rest, hrest, hshaped⟩ := h.shaped hnil hlen
    have hall : s.mem ptr = some (Bytes.words [] ++ (Bytes.words ids ++ rest)) := hrest
    obtain ⟨k, out, hprefix, hrun⟩ := mappingTranslateListToReal_go_run hd hall
    obtain ⟨rfl, rfl⟩ := hprefix.full hmap
    have hzero : ¬ (ids.length = 0 ∨ ptr = 0) := by
      rintro (h0 | h0)
      · exact hnil (List.length_eq_zero_iff.mp h0)
      · exact hne hnil h0
    refine ⟨_, ?_, fun _ => ⟨rest, s.withBlock_mem ptr _⟩, hshaped⟩
    rw [mappingTranslateListToReal, if_neg hzero]
    rw [List.length_nil, Nat.zero_add, List.nil_append] at hrun
    exact hrun

end

/-- The real id of a device of the platform. -/
def Platform.realId (platform : Platform) (id : GlobalId) : Option Arg :=
  (platform.devices.find? fun device => device.globalId == id).map Device.id

section
variable {s s' : State Cl} {ptr : Arg} {ids reals pre : List Arg} {rest : Bytes}
  {platform : Platform}

theorem contextDevices_run (hmap : ids.map platform.realId = reals.map some)
    (hint : ids ≠ [] → pre.length + ids.length < 2 ^ 31)
    (h : s.mem ptr = some (Bytes.words pre ++ (Bytes.words ids ++ rest))) :
    contextDevices platform ptr ids.length pre.length s =
      .done (s.withBlock ptr (Bytes.words (pre ++ reals) ++ rest)) () := by
  induction ids generalizing s pre reals with
  | nil =>
    obtain rfl : reals = [] := by simpa using hmap.symm
    have hmem : s.mem ptr = some (Bytes.words pre ++ rest) := h
    rw [List.append_nil, State.withBlock_eq_self hmem]
    rfl
  | cons id ids ih =>
    cases reals with
    | nil => cases hmap
    | cons real reals =>
      obtain ⟨hreal, hmap'⟩ := List.cons.inj hmap
      obtain ⟨device, hfind, rfl⟩ := Option.map_eq_some_iff.mp hreal
      have hcount : (pre ++ [device.id]).length = pre.length + 1 := List.length_append
      have hlen := hint (List.cons_ne_nil id ids)
      rw [List.length_cons] at hlen
      have hrest := ih
        (s := s.withBlock ptr (Bytes.words (pre ++ [device.id]) ++ (Bytes.words ids ++ rest)))
        hmap' (fun _ => by rw [hcount]; omega) (State.withBlock_mem _ _ _)
      rw [hcount] at hrest
      rw [List.length_cons, contextDevices, bind_run, loadWord_middle h, Outcome.bind_done]
      simp only [hfind]
      rw [bind_run, store_middle _ h, Outcome.bind_done, if_pos (by omega), hrest,
        State.withBlock_withBlock, List.append_assoc, List.singleton_append]

/-- The loop goes through only when all the devices are found, and can be counted. -/
theorem contextDevices_done
    (hrun : contextDevices platform ptr ids.length pre.length s = .done s' ())
    (h : s.mem ptr = some (Bytes.words pre ++ (Bytes.words ids ++ rest))) :
    (∃ reals : List Arg, ids.map platform.realId = reals.map some) ∧
      (ids ≠ [] → pre.length + ids.length < 2 ^ 31) := by
  induction ids generalizing s pre with
  | nil => exact ⟨⟨[], rfl⟩, fun hne => absurd rfl hne⟩
  | cons id ids ih =>
    rw [List.length_cons, contextDevices, bind_run, loadWord_middle h, Outcome.bind_done] at hrun
    cases hfind : platform.devices.find? fun device => device.globalId == id with
    | none =>
      simp only [hfind] at hrun
      cases hrun
    | some device =>
      simp only [hfind] at hrun
      have hcount : (pre ++ [device.id]).length = pre.length + 1 := List.length_append
      rw [bind_run, store_middle _ h, Outcome.bind_done] at hrun
      by_cases hlt : pre.length + 1 < 2 ^ 31
      · rw [if_pos hlt, ← hcount] at hrun
        obtain ⟨⟨reals, hreals⟩, hint⟩ := ih hrun (State.withBlock_mem _ _ _)
        refine ⟨⟨device.id :: reals, ?_⟩, fun _ => ?_⟩
        · rw [List.map_cons, List.map_cons, hreals, Platform.realId, hfind]
          rfl
        · by_cases hnil : ids = []
          · rw [hnil, List.length_singleton]
            exact hlt
          · have hle := hint hnil
            rw [hcount] at hle
            rw [List.length_cons]
            omega
      · rw [if_neg hlt] at hrun
        cases hrun

/-- The devices of a list are looked up in place, and the other blocks stay as they are. -/
theorem contextDevices_apart (hmap : ids.map platform.realId = reals.map some)
    (hint : ids.length < 2 ^ 31) (h : s.mem.Lists ptr ids) : ∃ mem,
      contextDevices platform ptr ids.length 0 s = .done { s with mem := mem } () ∧
        mem.Lists ptr reals ∧ s.mem.Shaped mem ∧ ∀ p, p ≠ ptr → mem p = s.mem p := by
  have hlen : reals.length = ids.length := by
    have hl := congrArg List.length hmap
    rw [List.length_map, List.length_map] at hl
    exact hl.symm
  by_cases hnil : ids = []
  · subst hnil
    exact ⟨s.mem, rfl, fun hreals => absurd (List.length_eq_zero_iff.mp hlen) hreals, .refl _,
      fun _ _ => rfl⟩
  · obtain ⟨rest, hrest, hshaped⟩ := h.shaped hnil hlen
    have hall : s.mem ptr = some (Bytes.words [] ++ (Bytes.words ids ++ rest)) := hrest
    have hrun := contextDevices_run hmap (fun _ => by rw [List.length_nil]; omega) hall
    exact ⟨_, hrun, fun _ => ⟨rest, State.withBlock_mem s ptr _⟩, hshaped,
      fun p hp => s.mem.put_of_ne hp _⟩

theorem contextDevices_lists (hmap : ids.map platform.realId = reals.map some)
    (hint : ids.length < 2 ^ 31) (h : s.mem.Lists ptr ids) : ∃ mem,
      contextDevices platform ptr ids.length 0 s = .done { s with mem := mem } () ∧
        mem.Lists ptr reals ∧ s.mem.Shaped mem := by
  obtain ⟨mem, hrun, hlists, hshaped, -⟩ := contextDevices_apart hmap hint h
  exact ⟨mem, hrun, hlists, hshaped⟩

end

structure Properties (b : Bytes) (n : ℕ) : Prop where
  size : 8 * (2 * n) + 8 ≤ b.length
  names : ∀ j < n, b.wordAt (2 * j) ≠ 0
  ends : b.wordAt (2 * n) = 0

/-- The last platform that the first `n` properties name. -/
def contextId (b : Bytes) : ℕ → Arg
  | 0 => 0
  | n + 1 => if b.wordAt (2 * n) = clContextPlatform then b.wordAt (2 * n + 1) else contextId b n

def State.NamesPlatform (s : State Cl) (ptr : Arg) (platform : Platform) : Prop :=
  ∃ b n, s.mem ptr = some b ∧ Properties b n ∧
    s.platforms.find? (fun p => p.globalId == contextId b n) = some platform

section
variable {s s' : State Cl} {ptr : Arg} {b : Bytes} {n j fuel : ℕ}

theorem loadWord_done {i : ℕ} {w : Arg} (h : loadWord ptr i s = .done s' w) :
    s' = s ∧ ∃ b, s.mem ptr = some b ∧ 8 * i + 8 ≤ b.length ∧ w = b.wordAt i := by
  cases hb : s.mem ptr with
  | none =>
    rw [loadWord, bind_run, load, bind_run, get_run, Outcome.bind_done, hb] at h
    cases h
  | some b =>
    by_cases hlen : 8 * i + 8 ≤ b.length
    · rw [loadWord_run hb hlen] at h
      obtain ⟨rfl, rfl⟩ := Outcome.done.inj h
      exact ⟨rfl, b, rfl, hlen, rfl⟩
    · rw [loadWord, bind_run, load, bind_run, get_run, Outcome.bind_done, hb] at h
      simp only [if_neg hlen] at h
      cases h

theorem contextPlatform_run (hb : s.mem ptr = some b) (h : Properties b n) (hj : j ≤ n)
    (hfuel : n < j + fuel) :
    contextPlatform ptr fuel (2 * j) (contextId b j) s = .done s (contextId b n) := by
  have hsize := h.size
  induction fuel generalizing j with
  | zero => omega
  | succ fuel ih =>
    rw [contextPlatform, bind_run, loadWord_run hb (by omega), Outcome.bind_done]
    rcases hj.eq_or_lt with rfl | hlt
    · rw [if_pos h.ends]
      rfl
    · have hnext := ih (j := j + 1) hlt (by omega)
      rw [contextId] at hnext
      rw [if_neg (h.names j hlt)]
      by_cases hprop : b.wordAt (2 * j) = clContextPlatform
      · rw [if_pos hprop] at hnext
        rw [if_pos hprop, bind_run, loadWord_run hb (by omega), Outcome.bind_done]
        exact hnext
      · rw [if_neg hprop] at hnext
        rw [if_neg hprop]
        exact hnext

/-- The loop comes to its end only at the zero behind the properties. -/
theorem contextPlatform_done {id : Arg} (hb : s.mem ptr = some b)
    (hnames : ∀ i < j, b.wordAt (2 * i) ≠ 0)
    (hrun : contextPlatform ptr fuel (2 * j) (contextId b j) s = .done s' id) :
    s' = s ∧ ∃ n, Properties b n ∧ id = contextId b n := by
  induction fuel generalizing j with
  | zero => cases hrun
  | succ fuel ih =>
    rw [contextPlatform, bind_run] at hrun
    obtain ⟨s₁, w, hload, hrest⟩ := Outcome.bind_eq_done hrun
    obtain ⟨rfl, b', hb', hlen, rfl⟩ := loadWord_done hload
    obtain rfl := Option.some.inj (hb.symm.trans hb')
    by_cases hzero : b.wordAt (2 * j) = 0
    · rw [if_pos hzero] at hrest
      obtain ⟨rfl, rfl⟩ := Outcome.done.inj hrest
      exact ⟨rfl, j, ⟨hlen, hnames, hzero⟩, rfl⟩
    · have hnames' : ∀ i < j + 1, b.wordAt (2 * i) ≠ 0 := by
        intro i hi
        rcases (Nat.lt_succ_iff.mp hi).eq_or_lt with rfl | hlt
        · exact hzero
        · exact hnames i hlt
      rw [if_neg hzero] at hrest
      apply ih hnames'
      rw [contextId]
      by_cases hprop : b.wordAt (2 * j) = clContextPlatform
      · rw [if_pos hprop] at hrest ⊢
        obtain ⟨s₂, w, hvalue, hnext⟩ := Outcome.bind_eq_done hrest
        obtain ⟨rfl, b', hb', -, rfl⟩ := loadWord_done hvalue
        obtain rfl := Option.some.inj (hb.symm.trans hb')
        exact hnext
      · rw [if_neg hprop] at hrest ⊢
        exact hrest

/-- A store to the value of a property leaves the names. -/
theorem Properties.overwrite (h : Properties b n) (hj : j < n) (id : Arg) :
    Properties (b.overwrite (8 * (2 * j + 1)) (Bytes.word id)) n := by
  have hsize := h.size
  have hword : ∀ i, (b.overwrite (8 * (2 * j + 1)) (Bytes.word id)).wordAt (2 * i) =
      b.wordAt (2 * i) := fun i => Bytes.wordAt_overwrite_of_ne (by omega) (by omega) _
  constructor
  · rw [Bytes.length_overwrite (by rw [Bytes.length_word]; omega)]
    exact hsize
  · intro i hi
    rw [hword]
    exact h.names i hi
  · rw [hword, h.ends]

/-- The second loop writes to the block of the properties only. -/
theorem contextReplace_run (id : Arg) (hb : s.mem ptr = some b) (h : Properties b n) (hj : j ≤ n)
    (hfuel : n < j + fuel) : ∃ b', b'.length = b.length ∧
      contextReplace ptr id fuel (2 * j) s = .done (s.withBlock ptr b') () := by
  induction fuel generalizing j s b with
  | zero => omega
  | succ fuel ih =>
    have hsize := h.size
    rw [contextReplace, bind_run, loadWord_run hb (by omega), Outcome.bind_done]
    rcases hj.eq_or_lt with rfl | hlt
    · refine ⟨b, rfl, ?_⟩
      rw [if_pos h.ends, State.withBlock_eq_self hb]
      rfl
    · rw [if_neg (h.names j hlt)]
      by_cases hprop : b.wordAt (2 * j) = clContextPlatform
      · have hlen : (b.overwrite (8 * (2 * j + 1)) (Bytes.word id)).length = b.length :=
          Bytes.length_overwrite (by rw [Bytes.length_word]; omega)
        have hstore : store ptr (8 * (2 * j + 1)) (Bytes.word id) s =
            .done (s.withBlock ptr (b.overwrite (8 * (2 * j + 1)) (Bytes.word id))) () :=
          store_run hb (by rw [Bytes.length_word]; omega)
        obtain ⟨b', hb', hrun⟩ := ih (j := j + 1) (s.withBlock_mem ptr _) (h.overwrite hlt id)
          hlt (by omega)
        refine ⟨b', hb'.trans hlen, ?_⟩
        rw [if_pos hprop]
        show (store ptr (8 * (2 * j + 1)) (Bytes.word id) >>= fun _ => _) s = _
        rw [bind_run, hstore, Outcome.bind_done, ← State.withBlock_withBlock _ b']
        exact hrun
      · obtain ⟨b', hb', hrun⟩ := ih (j := j + 1) hb h hlt (by omega)
        refine ⟨b', hb', ?_⟩
        rw [if_neg hprop]
        exact hrun

/-- The platform is found, and what else the memory holds is as it was. -/
theorem contextProperties_run {platform : Platform} (h : s.NamesPlatform ptr platform) :
    ∃ mem, contextProperties ptr s = .done { s with mem := mem } platform ∧
      s.mem.Shaped mem ∧ ∀ p, p ≠ ptr → mem p = s.mem p := by
  obtain ⟨b, n, hb, hprops, hfind⟩ := h
  have hsize := hprops.size
  have hfuel : n < 0 + (b.length + 1) := by omega
  have hfirst := contextPlatform_run hb hprops (Nat.zero_le n) hfuel
  obtain ⟨b', hlen, hsecond⟩ := contextReplace_run platform.id hb hprops (Nat.zero_le n) hfuel
  refine ⟨_, ?_, .put hb hlen, fun p hp => s.mem.put_of_ne hp _⟩
  rw [contextProperties, bind_run, get_run, Outcome.bind_done, hb]
  show (contextPlatform ptr (b.length + 1) 0 0 >>= fun _ => _) s = _
  rw [bind_run]
  rw [Nat.mul_zero, contextId] at hfirst
  rw [hfirst, Outcome.bind_done, bind_run, get_run, Outcome.bind_done]
  simp only [hfind]
  rw [bind_run]
  rw [Nat.mul_zero] at hsecond
  show (contextReplace ptr platform.id (b.length + 1) 0 s).bind _ = _
  rw [hsecond]
  rfl

theorem contextProperties_done {platform : Platform}
    (hrun : contextProperties ptr s = .done s' platform) : s.NamesPlatform ptr platform := by
  rw [contextProperties, bind_run, get_run, Outcome.bind_done, bind_run] at hrun
  obtain ⟨s₁, id, hfirst, hrest⟩ := Outcome.bind_eq_done hrun
  cases hb : s.mem ptr with
  | none =>
    rw [hb] at hfirst
    obtain ⟨s₂, w, hload, -⟩ := Outcome.bind_eq_done hfirst
    obtain ⟨-, b, hb', -⟩ := loadWord_done hload
    rw [hb] at hb'
    cases hb'
  | some b =>
    obtain ⟨rfl, n, hprops, rfl⟩ := contextPlatform_done (j := 0) hb (fun _ h => by omega) hfirst
    rw [bind_run, get_run, Outcome.bind_done] at hrest
    cases hfind : s₁.platforms.find? fun p => p.globalId == contextId b n with
    | none =>
      simp only [hfind] at hrest
      cases hrest
    | some p =>
      simp only [hfind] at hrest
      obtain ⟨s₂, u, -, hlast⟩ := Outcome.bind_eq_done hrest
      obtain ⟨-, rfl⟩ := Outcome.done.inj hlast
      exact ⟨b, n, hb, hprops, hfind⟩

end

/-- Where a function of OpenCL gets a list of objects: the number of the argument with its length,
from zero; the list is the next argument. -/
def idList : ClFunction → Option ℕ
  | .waitForEvents => some 0
  | .enqueueWaitForEvents | .createContext | .buildProgram | .createProgramWithSource => some 1
  | .enqueueTask => some 2
  | .enqueueReadBuffer | .enqueueWriteBuffer | .enqueueCopyBuffer | .enqueueNDRangeKernel => some 6
  | _ => none

/-- The argument of the handler that tells where to store the error code. -/
def errcodeArg : ClFunction → Option ℕ
  | .createContext => some 6
  | .createProgramWithSource => some 5
  | _ => none

def Call.Has (call : Call) (k : ℕ) (ws : List Arg) : Prop :=
  ∃ n ptr, call.args[k]? = some n ∧ n.toNat = ws.length ∧ call.args[k + 1]? = some ptr ∧
    call.mem.Lists ptr ws

/-- The handler calls the function of the library, once, with this list of objects. -/
def HandsOver (d : ClFunction) (pfn : Handler (Cl × List Call)) (argv : ℕ → Arg)
    (s : State (Cl × List Call)) (k : ℕ) (ws : List Arg) : Prop :=
  ∃ s' ret call, pfn argv s = .done s' ret ∧ s'.cl.2 = s.cl.2 ++ [call] ∧ call.f = d ∧
    call.Has k ws

/-- The handler that the table has for the function hands this list of objects over. -/
def ListReaches (lib : OpenCl Cl) (d : ClFunction) (argv : ℕ → Arg) (s : State (Cl × List Call))
    (k : ℕ) (ws : List Arg) : Prop :=
  ∃ pfn ptrargs, execFunTable lib.logged d = some (pfn, ptrargs) ∧ HandsOver d pfn argv s k ws

/-- A request with a list of ids that the map knows, as `clara_execute` gives it to the handler.
The consumer's library sends no callback for `clBuildProgram`. -/
structure Receives (s : State Cl) (d : ClFunction) (argv : ℕ → Arg) (k : ℕ)
    (ids reals : List Arg) : Prop where
  index : idList d = some k
  sound : s.idMap.damaged = false
  mapped : ids.map s.idMap.lookup = reals.map some
  count : (argv (k + 1)).toUInt32.toNat = ids.length
  list : s.mem.Lists (argv (k + 2)) ids
  valid : ids ≠ [] → argv (k + 2) ≠ 0
  notify : d = .buildProgram → argv 5 = 0 ∧ argv 6 = 0
  errcode : ∀ i, errcodeArg d = some i →
    argv i = 0 ∨ ∃ b, s.mem (argv i) = some b ∧ 4 ≤ b.length
  apart : d = .createContext → argv 1 ≠ argv 3

/-- When the handler of `d` puts the right pointers in the place of the ids. Those of the two
functions that wait for events leave the list alone, and that of `clCreateContext` looks the devices
up in the platform that the properties name. -/
def Translates (s : State Cl) (d : ClFunction) (argv : ℕ → Arg) (ids reals : List Arg) : Prop :=
  match d with
  | .waitForEvents | .enqueueWaitForEvents => ids = reals
  | .createContext => ids.length < 2 ^ 31 ∧ ∃ platform, s.NamesPlatform (argv 1) platform ∧
      ids.map platform.realId = reals.map some
  | _ => True

section
variable {lib : OpenCl Cl} {s s₁ : State (Cl × List Call)} {d : ClFunction} {argv : ℕ → Arg}
  {k : ℕ} {ids reals : List Arg}

theorem toNat_toUint (w : Arg) : (toUint w).toNat = w.toUInt32.toNat := by
  rw [toUint, UInt32.toNat_toUInt64]

theorem Receives.length_eq (h : Receives s d argv k ids reals) : reals.length = ids.length := by
  have hlen := congrArg List.length h.mapped
  rw [List.length_map, List.length_map] at hlen
  exact hlen.symm

/-- A handler that comes to the call of the library and then to its end. -/
theorem handsOver_iff (hlib : lib.KeepsBlocks) {pfn : Handler (Cl × List Call)} {args : List Arg}
    {f : ClResult → PProg (Cl × List Call) Arg} {n ptr : Arg} {ws : List Arg}
    (hrun : pfn argv s = (callCl lib.logged d args >>= f) s₁) (hcl : s₁.cl = s.cl)
    (hf : ∀ r s₂, s₁.mem.Shaped s₂.mem → ∃ s₃ ret, f r s₂ = .done s₃ ret ∧ s₃.cl = s₂.cl)
    (hn : args[k]? = some n) (hptr : args[k + 1]? = some ptr) :
    HandsOver d pfn argv s k ws ↔ n.toNat = ws.length ∧ s₁.mem.Lists ptr ws := by
  obtain ⟨s₃, ret, hdone, hlog⟩ : ∃ s₃ ret, pfn argv s = .done s₃ ret ∧
      s₃.cl.2 = s.cl.2 ++ [⟨d, args, s₁.mem⟩] := by
    obtain ⟨s₃, ret, hlast, hsame⟩ := hf (lib.call d args s₁.cl.1 s₁.mem).2.2
      { s₁ with cl := ((lib.call d args s₁.cl.1 s₁.mem).1, s₁.cl.2 ++ [⟨d, args, s₁.mem⟩]),
                mem := (lib.call d args s₁.cl.1 s₁.mem).2.1 } (hlib d args s₁.cl.1 s₁.mem)
    refine ⟨s₃, ret, hrun.trans hlast, ?_⟩
    rw [hsame, ← hcl]
  constructor
  · rintro ⟨s', ret', call, hdone', hlog', -, n', ptr', hn', hlen, hptr', hlists⟩
    obtain ⟨rfl, -⟩ := Outcome.done.inj (hdone.symm.trans hdone')
    obtain ⟨rfl, -⟩ := List.cons.inj (List.append_cancel_left (hlog.symm.trans hlog'))
    obtain rfl := Option.some.inj (hn.symm.trans hn')
    obtain rfl := Option.some.inj (hptr.symm.trans hptr')
    exact ⟨hlen, hlists⟩
  · rintro ⟨hlen, hlists⟩
    exact ⟨s₃, ret, _, hdone, hlog, rfl, n, ptr, hn, hlen, hptr, hlists⟩

theorem pure_completes (r : ClResult) (s₂ : State (Cl × List Call)) :
    ∃ s₃ ret, (pure r.ret : PProg (Cl × List Call) Arg) s₂ = .done s₃ ret ∧ s₃.cl = s₂.cl :=
  ⟨s₂, r.ret, rfl, rfl⟩

/-- The error code is stored where the request says. -/
theorem copyErrcode_completes {ptr : Arg} (h : ptr = 0 ∨ ∃ b, s.mem ptr = some b ∧ 4 ≤ b.length)
    (r : ClResult) (s₂ : State (Cl × List Call)) (hs : s.mem.Shaped s₂.mem) :
    ∃ s₃ ret, (do
      copyErrcode ptr r.errcode
      pure r.ret : PProg (Cl × List Call) Arg) s₂ = .done s₃ ret ∧ s₃.cl = s₂.cl := by
  rw [copyErrcode]
  by_cases hptr : ptr = 0
  · rw [if_pos hptr]
    exact ⟨s₂, r.ret, rfl, rfl⟩
  · obtain ⟨b, hb, hlen⟩ := h.resolve_left hptr
    obtain ⟨b', hb', hlen'⟩ := hs ptr b hb
    have hfits : 0 + (Bytes.ofNat 4 r.errcode.toNat).length ≤ b'.length := by
      rw [Bytes.length_ofNat]
      omega
    have hstore := store_run hb' hfits
    rw [if_neg hptr, bind_run, hstore]
    exact ⟨_, r.ret, rfl, rfl⟩

theorem Receives.translateList (h : Receives s d argv k ids reals) : ∃ mem,
    mappingTranslateListToReal (argv (k + 2)) (argv (k + 2)) (argv (k + 1)).toUInt32.toNat s =
      .done { s with mem := mem } (argv (k + 1)).toUInt32.toNat ∧
        mem.Lists (argv (k + 2)) reals ∧ s.mem.Shaped mem := by
  rw [h.count]
  exact translateList_run h.sound h.mapped h.list h.valid

theorem Receives.count_toUint (h : Receives s d argv k ids reals) :
    (toUint (argv (k + 1))).toNat = reals.length := by
  rw [toNat_toUint, h.count, h.length_eq]

theorem Receives.handsOver_enqueue (h : Receives s d argv k ids reals) (hlib : lib.KeepsBlocks)
    {args : (ℕ → Arg) → List Arg} (hn : (args argv)[k]? = some (toUint (argv (k + 1))))
    (hptr : (args argv)[k + 1]? = some (argv (k + 2))) :
    HandsOver d (claraEnqueue lib.logged d (k + 1) (k + 2) args) argv s k reals := by
  obtain ⟨mem, htranslate, hlists, hshaped⟩ := h.translateList
  have hrun : claraEnqueue lib.logged d (k + 1) (k + 2) args argv s =
      (callCl lib.logged d (args argv) >>= fun r => pure r.ret) { s with mem := mem } := by
    rw [claraEnqueue, bind_run, htranslate, Outcome.bind_done, bind_run, assert_run,
      if_pos (beq_self_eq_true _), Outcome.bind_done]
  exact (handsOver_iff hlib hrun rfl (fun r s₂ _ => pure_completes r s₂) hn hptr).mpr
    ⟨h.count_toUint, hlists⟩

theorem Receives.handsOver_buildProgram (h : Receives s .buildProgram argv 1 ids reals)
    (hlib : lib.KeepsBlocks) :
    HandsOver .buildProgram (claraClBuildProgram lib.logged) argv s 1 reals := by
  obtain ⟨mem, htranslate, hlists, hshaped⟩ := h.translateList
  obtain ⟨h5, h6⟩ := h.notify rfl
  have hrun : claraClBuildProgram lib.logged argv s =
      (callCl lib.logged .buildProgram [argv 1, toUint (argv 2), argv 3, argv 4, 0, 0] >>=
        fun r => pure r.ret) { s with mem := mem } := by
    rw [claraClBuildProgram, h5, h6, bind_run, assert_run,
      if_pos (beq_self_eq_true _), Outcome.bind_done, bind_run, assert_run,
      if_pos (beq_self_eq_true _), Outcome.bind_done]
    simp only [toNat_toUint]
    rw [bind_run, htranslate, Outcome.bind_done, bind_run, assert_run,
      if_pos (beq_self_eq_true _), Outcome.bind_done]
  exact (handsOver_iff hlib hrun rfl (fun r s₂ _ => pure_completes r s₂) rfl rfl).mpr
    ⟨h.count_toUint, hlists⟩

theorem Receives.handsOver_createProgramWithSource
    (h : Receives s .createProgramWithSource argv 1 ids reals) (hlib : lib.KeepsBlocks) :
    HandsOver .createProgramWithSource (claraClCreateProgramWithSource lib.logged) argv s 1
      reals := by
  obtain ⟨mem, htranslate, hlists, hshaped⟩ := h.translateList
  have hrun : claraClCreateProgramWithSource lib.logged argv s =
      (callCl lib.logged .createProgramWithSource [argv 1, toUint (argv 2), argv 3, argv 4] >>=
        fun r => do
          copyErrcode (argv 5) r.errcode
          pure r.ret) { s with mem := mem } := by
    rw [claraClCreateProgramWithSource]
    simp only [toNat_toUint]
    rw [bind_run, htranslate, Outcome.bind_done, bind_run, assert_run,
      if_pos (beq_self_eq_true _), Outcome.bind_done]
  have hlast := copyErrcode_completes (h.errcode 5 rfl)
  exact (handsOver_iff hlib hrun rfl (fun r s₂ hs₂ => hlast r s₂ (hshaped.trans hs₂)) rfl rfl).mpr
    ⟨h.count_toUint, hlists⟩

/-- Without a loop in the handler the library finds the ids themselves. -/
theorem Receives.handsOver_passOn (h : Receives s d argv k ids reals) (hlib : lib.KeepsBlocks)
    {args : (ℕ → Arg) → List Arg} (hn : (args argv)[k]? = some (toUint (argv (k + 1))))
    (hptr : (args argv)[k + 1]? = some (argv (k + 2))) :
    HandsOver d (claraPassOn lib.logged d args) argv s k reals ↔ ids = reals := by
  have hrun : claraPassOn lib.logged d args argv s =
      (callCl lib.logged d (args argv) >>= fun r => pure r.ret) s := rfl
  rw [handsOver_iff hlib hrun rfl (fun r s₂ _ => pure_completes r s₂) hn hptr]
  constructor
  · rintro ⟨-, hlists⟩
    exact h.list.eq hlists h.length_eq.symm
  · rintro rfl
    exact ⟨h.count_toUint, h.list⟩

variable (lib) in
theorem Receives.run_createContext (h : Receives s .createContext argv 1 ids reals)
    {platform : Platform} (hnames : s.NamesPlatform (argv 1) platform) {devs : List Arg}
    (hmap : ids.map platform.realId = devs.map some) (hint : ids.length < 2 ^ 31) : ∃ mem,
      claraClCreateContext lib.logged argv s =
        (callCl lib.logged .createContext [argv 1, toUint (argv 2), argv 3, 0, 0] >>= fun r => do
          copyErrcode (argv 6) r.errcode
          pure r.ret) { s with mem := mem } ∧ mem.Lists (argv 3) devs ∧ s.mem.Shaped mem := by
  obtain ⟨mem₁, hprops, hshaped₁, hkept⟩ := contextProperties_run hnames
  have hlist : mem₁.Lists (argv 3) ids := by
    intro hne
    obtain ⟨rest, hrest⟩ := h.list hne
    exact ⟨rest, by rw [hkept _ (h.apart rfl).symm, hrest]⟩
  obtain ⟨mem₂, hdevices, hlists, hshaped₂⟩ := contextDevices_lists (s := { s with mem := mem₁ })
    hmap hint hlist
  refine ⟨mem₂, ?_, hlists, hshaped₁.trans hshaped₂⟩
  rw [claraClCreateContext, bind_run, hprops, Outcome.bind_done, toNat_toUint, h.count, bind_run,
    hdevices, Outcome.bind_done]

/-- The devices of a context are looked up in the platform that the properties name. -/
theorem Receives.handsOver_createContext (h : Receives s .createContext argv 1 ids reals)
    (hlib : lib.KeepsBlocks) :
    HandsOver .createContext (claraClCreateContext lib.logged) argv s 1 reals ↔
      ids.length < 2 ^ 31 ∧ ∃ platform, s.NamesPlatform (argv 1) platform ∧
        ids.map platform.realId = reals.map some := by
  have hlast := copyErrcode_completes (h.errcode 6 rfl)
  constructor
  · intro hands
    obtain ⟨s', ret, call, hdone, -⟩ := id hands
    obtain ⟨s₁, platform, hprops, hrest⟩ := Outcome.bind_eq_done hdone
    have hnames := contextProperties_done hprops
    obtain ⟨mem₁, hprops', -, hkept⟩ := contextProperties_run hnames
    obtain ⟨rfl, -⟩ := Outcome.done.inj (hprops.symm.trans hprops')
    obtain ⟨s₂, u, hdevices, -⟩ := Outcome.bind_eq_done hrest
    rw [toNat_toUint, h.count] at hdevices
    obtain ⟨⟨devs, hdevs⟩, hint⟩ : (∃ devs : List Arg, ids.map platform.realId = devs.map some) ∧
        ids.length < 2 ^ 31 := by
      by_cases hnil : ids = []
      · rw [hnil]
        exact ⟨⟨[], rfl⟩, by decide⟩
      · obtain ⟨rest, hlist⟩ := h.list hnil
        have hall : ({ s with mem := mem₁ } : State (Cl × List Call)).mem (argv 3) =
            some (Bytes.words [] ++ (Bytes.words ids ++ rest)) :=
          (hkept _ (h.apart rfl).symm).trans hlist
        obtain ⟨hdevs, hint⟩ := contextDevices_done hdevices hall
        have hlt := hint hnil
        rw [List.length_nil, Nat.zero_add] at hlt
        exact ⟨hdevs, hlt⟩
    obtain ⟨mem, hrun, hlists, hshaped⟩ := h.run_createContext lib hnames hdevs hint
    have hboth := (handsOver_iff hlib hrun rfl
      (fun r s₂ hs₂ => hlast r s₂ (hshaped.trans hs₂)) rfl rfl).mp hands
    have hlen : devs.length = reals.length := by
      have hl := congrArg List.length hdevs
      rw [List.length_map, List.length_map] at hl
      rw [← hl, h.length_eq]
    rw [hlists.eq hboth.2 hlen] at hdevs
    exact ⟨hint, platform, hnames, hdevs⟩
  · rintro ⟨hint, platform, hnames, hmap⟩
    obtain ⟨mem, hrun, hlists, hshaped⟩ := h.run_createContext lib hnames hmap hint
    exact (handsOver_iff hlib hrun rfl (fun r s₂ hs₂ => hlast r s₂ (hshaped.trans hs₂)) rfl
      rfl).mpr ⟨h.count_toUint, hlists⟩

theorem listReaches_eq {pfn : Handler (Cl × List Call)} {ptrargs : List ℕ}
    (hf : execFunTable lib.logged d = some (pfn, ptrargs)) {ws : List Arg} :
    ListReaches lib d argv s k ws ↔ HandsOver d pfn argv s k ws := by
  constructor
  · rintro ⟨pfn', ptrargs', hf', hands⟩
    obtain ⟨rfl, -⟩ := Prod.mk.inj (Option.some.inj (hf.symm.trans hf'))
    exact hands
  · intro hands
    exact ⟨pfn, ptrargs, hf, hands⟩

/-- The library gets the list of the real pointers if and only if the handler translates the ids. -/
theorem listReaches_iff (lib : OpenCl Cl) (hlib : lib.KeepsBlocks)
    (h : Receives s d argv k ids reals) :
    ListReaches lib d argv s k reals ↔ Translates s d argv ids reals := by
  have hk := h.index
  cases d with
  | waitForEvents =>
    obtain rfl := Option.some.inj hk
    exact (listReaches_eq rfl).trans (h.handsOver_passOn hlib rfl rfl)
  | enqueueWaitForEvents =>
    obtain rfl := Option.some.inj hk
    exact (listReaches_eq rfl).trans (h.handsOver_passOn hlib rfl rfl)
  | createContext =>
    obtain rfl := Option.some.inj hk
    exact (listReaches_eq rfl).trans (h.handsOver_createContext hlib)
  | buildProgram =>
    obtain rfl := Option.some.inj hk
    exact iff_of_true ((listReaches_eq rfl).mpr (h.handsOver_buildProgram hlib)) trivial
  | createProgramWithSource =>
    obtain rfl := Option.some.inj hk
    exact iff_of_true ((listReaches_eq rfl).mpr (h.handsOver_createProgramWithSource hlib)) trivial
  | enqueueTask =>
    obtain rfl := Option.some.inj hk
    exact iff_of_true ((listReaches_eq rfl).mpr (h.handsOver_enqueue hlib rfl rfl)) trivial
  | enqueueReadBuffer =>
    obtain rfl := Option.some.inj hk
    exact iff_of_true ((listReaches_eq rfl).mpr (h.handsOver_enqueue hlib rfl rfl)) trivial
  | enqueueWriteBuffer =>
    obtain rfl := Option.some.inj hk
    exact iff_of_true ((listReaches_eq rfl).mpr (h.handsOver_enqueue hlib rfl rfl)) trivial
  | enqueueCopyBuffer =>
    obtain rfl := Option.some.inj hk
    exact iff_of_true ((listReaches_eq rfl).mpr (h.handsOver_enqueue hlib rfl rfl)) trivial
  | enqueueNDRangeKernel =>
    obtain rfl := Option.some.inj hk
    exact iff_of_true ((listReaches_eq rfl).mpr (h.handsOver_enqueue hlib rfl rfl)) trivial
  | _ => cases hk

end

/-- A provider that knows the event 10, whose list stands at 500. -/
def State.oneEvent : State (Unit × List Call) :=
  { State.initial silentCl.logged [] fun _ => 0 with
    idMap := IdSet.empty.add 10 4096
    mem := fun p => if p = 500 then some (Bytes.words [10]) else none }

/-- The arguments of `clEnqueueReadBuffer`, with the list of one event. -/
def readArgs (i : ℕ) : Arg := [0, 1, 2, 1, 0, 4, 0, 1, 500, 0].getD i 0

/-- The arguments of `clWaitForEvents`, with the same list. -/
def waitArgs (i : ℕ) : Arg := [0, 1, 500].getD i 0

theorem silentCl_keepsBlocks : silentCl.KeepsBlocks := fun _ _ _ mem => Memory.Shaped.refl mem

theorem oneEvent_receives_read :
    Receives State.oneEvent .enqueueReadBuffer readArgs 6 [10] [4096] where
  index := rfl
  sound := rfl
  mapped := rfl
  count := rfl
  list := fun _ => ⟨[], by rw [List.append_nil]; rfl⟩
  valid _ := by decide
  notify := nofun
  errcode := nofun
  apart := nofun

theorem oneEvent_receives_wait : Receives State.oneEvent .waitForEvents waitArgs 0 [10] [4096] where
  index := rfl
  sound := rfl
  mapped := rfl
  count := rfl
  list := fun _ => ⟨[], by rw [List.append_nil]; rfl⟩
  valid _ := by decide
  notify := nofun
  errcode := nofun
  apart := nofun

theorem listReaches_readBuffer :
    ListReaches silentCl .enqueueReadBuffer readArgs State.oneEvent 6 [4096] :=
  (listReaches_iff silentCl silentCl_keepsBlocks oneEvent_receives_read).mpr trivial

/-- The library's `clWaitForEvents` gets the id 10, which is no event of it. -/
theorem not_listReaches_wait : Receives State.oneEvent .waitForEvents waitArgs 0 [10] [4096] ∧
    ListReaches silentCl .waitForEvents waitArgs State.oneEvent 0 [10] ∧
      ¬ ListReaches silentCl .waitForEvents waitArgs State.oneEvent 0 [4096] := by
  have hreceives := oneEvent_receives_wait
  have hids : HandsOver .waitForEvents
      (claraPassOn silentCl.logged .waitForEvents fun argv => [toUint (argv 1), argv 2]) waitArgs
      State.oneEvent 0 [10] := by
    have hrun : claraPassOn silentCl.logged .waitForEvents (fun argv => [toUint (argv 1), argv 2])
        waitArgs State.oneEvent =
          (callCl silentCl.logged .waitForEvents [toUint (waitArgs 1), waitArgs 2] >>= fun r =>
            pure r.ret) State.oneEvent := rfl
    exact (handsOver_iff silentCl_keepsBlocks hrun rfl (fun r s₂ _ => pure_completes r s₂) rfl
      rfl).mpr ⟨rfl, hreceives.list⟩
  refine ⟨hreceives, (listReaches_eq rfl).mpr hids, fun h => ?_⟩
  have hsame := (hreceives.handsOver_passOn silentCl_keepsBlocks rfl rfl).mp
    ((listReaches_eq rfl).mp h)
  exact absurd hsame (by decide)

end Clara.Provider
