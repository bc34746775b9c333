import Clara.Joint.Startup

/-! Any number of providers that start one after the other. Each finds the agent as the others have
left it, and what the agent has of those before stays as it is. -/
namespace Clara.Joint

open Conc

/-- A provider that is about to start. -/
structure Newcomer (Cl : Type) where
  arrival : Arrival Cl
  queries : Provider.Queries
  malloc : (n : ℕ) → Buffer n
  device : ℤ
  addresses : ℕ → Arg

/-- What its library has to offer. -/
structure Profile where
  platform : Arg
  ids : List Arg
  str : PlatformParam → Bytes
  value : Arg → DeviceParam → Bytes

variable {Cl : Type}

/-- The providers start one after the other, each with a connection of its own. -/
def enrol : List (Newcomer Cl) → Agent.State →
    Outcome Agent.State Fault (List (Bool × Provider.State Cl))
  | [], s => .done s []
  | c :: cs, s =>
    match register c.arrival c.queries c.malloc c.device
      ⟨s, .initial c.arrival.lib [] c.addresses, []⟩ with
    | .done y b => (enrol cs y.agent).bind fun s qs => .done s ((b, y.provider) :: qs)
    | .fault f => .fault f
    | .blocked => .blocked

namespace Newcomer

/-- Where the agent has its record. -/
def p (c : Newcomer Cl) : Addr := c.arrival.p

/-- The ids that it needs. -/
def needs (c : Newcomer Cl) (f : Profile) : ℕ := (Provider.offered c.device f.ids).length + 1

def Offers (c : Newcomer Cl) (f : Profile) : Prop :=
  Joint.Offers c.queries c.malloc f.platform f.ids f.str f.value

/-- The agent has accepted the provider and has nothing of it yet. -/
structure Awaited (c : Newcomer Cl) (s : Agent.State) : Prop where
  record : ∃ provider, s.heap .provider c.p = some provider
  phase : s.phase (.provider c.p) = .registering
  conn : s.net (.provider c.p) = .fresh
  empty : s.sets (.platforms c.p) = .empty
  unknown : ∀ id real, ¬ s.Knows c.p id real

/-- The provider begins to serve with the platform and the devices that it offers, under ids of the
agent, which has the same of it. -/
structure Serves (c : Newcomer Cl) (f : Profile) (s : Agent.State) (pf : Provider.Platform) (a : Addr)
    (q : Provider.State Cl) : Prop where
  id : pf.id = f.platform
  devices : pf.devices.map Provider.Device.id = Provider.offered c.device f.ids
  distinct : Provider.Registered [pf]
  state : q = .initial c.arrival.lib [pf] c.addresses
  mirrors : Mirrors c.p a f.str f.value pf s
  phase : s.phase (.provider c.p) = .serving
  conn : s.net (.provider c.p) = .fresh
  offered : s.loadBalancing = true → (s.sets .lbPlatforms).lookup pf.globalId = some a

end Newcomer

section
variable {p q a : Addr} {s s' : Agent.State} {c : Newcomer Cl} {f : Profile}
  {pf : Provider.Platform} {state : Provider.State Cl}

theorem platforms_unchanged (h : Agent.Leaves s.next q s s') (hne : p ≠ q) :
    s'.sets (.platforms p) = s.sets (.platforms p) :=
  h.sets (.platforms p) (by simp) (by simp) (by simp) (by simpa using hne) (by simp)

theorem Mirrors.leaves {str : PlatformParam → Bytes} {value : Arg → DeviceParam → Bytes}
    (h : Mirrors p a str value pf s) (hs : s.Fresh) (hl : Agent.Leaves s.next q s s')
    (hne : p ≠ q) : Mirrors p a str value pf s' := by
  obtain ⟨r, hr, hdesc⟩ := h.record
  have hplatforms := platforms_unchanged hl hne
  have hdevices : s'.sets (.devices a) = s.sets (.devices a) := by
    refine hl.sets (.devices a) (by simp) (by simp) (by simp) (by simp) fun b hb heq => ?_
    obtain rfl := Agent.SetRef.devices.inj heq
    exact Nat.not_le.mpr (hs.lt hr) hb
  have hold : ∀ {k : Agent.Kind} {b : Addr} {v : k.Rec}, s.heap k b = some v →
      s'.heap k b = some v := fun hb => (hl.old _ _ (hs.lt hb)).trans hb
  constructor
  case intact => rw [hplatforms, h.intact]
  case list =>
    rw [Agent.State.list, hplatforms]
    exact h.list
  case entry => rw [hplatforms, h.entry]
  case record => exact ⟨r, hold hr, hdesc⟩
  case devicesIntact => rw [hdevices, h.devicesIntact]
  case known =>
    rw [hdevices]
    exact h.known
  case device =>
    intro device hmem
    obtain ⟨d, r, hd, hr, hdesc⟩ := h.device device hmem
    exact ⟨d, r, by rw [hdevices, hd], hold hr, hdesc⟩
  case objects =>
    intro id real
    rw [hl.knows p hne, h.objects]

theorem Newcomer.Serves.leaves (h : c.Serves f s pf a state) (hs : s.Fresh)
    (hl : Agent.Leaves s.next q s s') (hne : c.p ≠ q) : c.Serves f s' pf a state where
  id := h.id
  devices := h.devices
  distinct := h.distinct
  state := h.state
  mirrors := h.mirrors.leaves hs hl hne
  phase := by rw [hl.phase _ (by simpa using hne), h.phase]
  conn := by rw [hl.net _ (by simpa using hne), h.conn]
  offered hlb := hl.offers _ _ (h.offered (hl.loadBalancing ▸ hlb))

theorem Newcomer.Awaited.leaves (h : c.Awaited s) (hl : Agent.Leaves s.next q s s')
    (hne : c.p ≠ q) : c.Awaited s' where
  record := by
    rw [hl.provider]
    exact h.record
  phase := by rw [hl.phase _ (by simpa using hne), h.phase]
  conn := by rw [hl.net _ (by simpa using hne), h.conn]
  empty := by rw [platforms_unchanged hl hne, h.empty]
  unknown id real := by
    rw [hl.knows _ hne]
    exact h.unknown id real

end

section
variable {c : Newcomer Cl} {cs : List (Newcomer Cl)} {profile : Newcomer Cl → Profile}
  {s s' : Agent.State} {n : ℕ}

theorem register_newcomer {f : Profile} (hs : Agent.Receptive s) (hc : c.Awaited s)
    (hf : c.Offers f) (hd : s.DrawsDistinct (n + c.needs f)) :
    ∃ (y : Pair Cl) (pf : Provider.Platform),
      register c.arrival c.queries c.malloc c.device
        ⟨s, .initial c.arrival.lib [] c.addresses, []⟩ = .done y true ∧
      c.Serves f y.agent pf s.next y.provider ∧ Agent.Receptive y.agent ∧ y.agent.DrawsDistinct n ∧
        Agent.Leaves s.next c.p s y.agent := by
  obtain ⟨provider, hprovider⟩ := hc.record
  have hx : Expects c.arrival.p provider
      (n + (Provider.offered c.device f.ids).length + 1) s :=
    ⟨hs, hprovider, hc.phase, hc.empty, hc.unknown, hd⟩
  have hq : Quiet c.arrival.toSetting (⟨s, .initial c.arrival.lib [] c.addresses, []⟩ : Pair Cl) :=
    ⟨hc.conn, rfl⟩
  obtain ⟨y, pf, hrun, hid, hdevices, he, hd'⟩ := Expects.register hx hq rfl hf
  exact ⟨y, pf, hrun, ⟨hid, hdevices, he.distinct, he.provider_eq, he.mirrors, he.phase,
    he.quiet.agent, he.offered⟩,
    he.receptive, hd', he.leaves⟩

/-- All of them start, and what was registered before stays registered. -/
theorem enrol_run (hs : Agent.Receptive s) (hdistinct : (cs.map Newcomer.p).Nodup)
    (hc : ∀ c ∈ cs, c.Awaited s) (hf : ∀ c ∈ cs, c.Offers (profile c))
    (hd : s.DrawsDistinct (cs.map fun c => c.needs (profile c)).sum) :
    ∃ s' qs, enrol cs s = .done s' qs ∧ Agent.Receptive s' ∧
      List.Forall₂ (fun c q => q.1 = true ∧ ∃ pf a, c.Serves (profile c) s' pf a q.2) cs qs ∧
        ∀ (c : Newcomer Cl) f pf a q, c.p ∉ cs.map Newcomer.p → c.Serves f s pf a q →
          c.Serves f s' pf a q := by
  induction cs generalizing s with
  | nil => exact ⟨s, [], rfl, hs, .nil, fun c f pf a q _ h => h⟩
  | cons c cs ih =>
    obtain ⟨hnew, hdistinct⟩ := List.nodup_cons.mp hdistinct
    rw [List.map_cons, List.sum_cons, Nat.add_comm] at hd
    obtain ⟨y, pf, hone, hserves, hs₁, hd₁, hl⟩ :=
      register_newcomer hs (hc c List.mem_cons_self) (hf c List.mem_cons_self) hd
    have hc₁ : ∀ c' ∈ cs, c'.Awaited y.agent := fun c' hc' =>
      (hc c' (List.mem_cons_of_mem _ hc')).leaves hl fun heq =>
        hnew (heq ▸ List.mem_map_of_mem hc')
    obtain ⟨s', qs, hrest, hs', hall, hkeep⟩ := ih hs₁ hdistinct hc₁
      (fun c' hc' => hf c' (List.mem_cons_of_mem _ hc')) hd₁
    refine ⟨s', (true, y.provider) :: qs, ?_, hs', ?_, ?_⟩
    · rw [enrol, hone]
      simp only
      rw [hrest, Outcome.bind_done]
    · exact .cons ⟨rfl, pf, s.next, hkeep c _ pf _ _ hnew hserves⟩ hall
    · intro c' f pf' a q hc' h
      rw [List.map_cons, List.mem_cons, not_or] at hc'
      exact hkeep c' f pf' a q hc'.2 (h.leaves hs.fresh hl hc'.1)

/-- However many providers start, each of them begins to serve with the ids under which the agent
has its platform and the devices it offers, and with no others. -/
theorem enrol_mirrors (hs : Agent.Receptive s) (hdistinct : (cs.map Newcomer.p).Nodup)
    (hc : ∀ c ∈ cs, c.Awaited s) (hf : ∀ c ∈ cs, c.Offers (profile c))
    (hd : s.DrawsDistinct (cs.map fun c => c.needs (profile c)).sum) :
    ∃ s' qs, enrol cs s = .done s' qs ∧ Agent.Receptive s' ∧
      List.Forall₂ (fun c q => q.1 = true ∧ ∃ pf a, c.Serves (profile c) s' pf a q.2) cs qs := by
  obtain ⟨s', qs, hrun, hs', hall, -⟩ := enrol_run hs hdistinct hc hf hd
  exact ⟨s', qs, hrun, hs', hall⟩

end

def smallQueries : Provider.Queries where
  clGetPlatformIDs := some 77
  clGetPlatformInfo _ _ := some [65, 0]
  clGetDeviceIDs _ n := some (1, [78].take n)
  clGetDeviceInfo _ param := some (someValue param)

/-- A provider with this library whose record is at `p`. -/
def Newcomer.small (p : Addr) : Newcomer Unit where
  arrival :=
    { toSetting := ⟨literalLzo, 1000, Provider.silentCl, p⟩
      sizes _ := 0
      stale _ := zeros Agent.infobufsz }
  queries := smallQueries
  malloc := zeros
  device := -1
  addresses _ := 4096

def Profile.small : Profile := ⟨77, [78], fun _ => [65], fun _ => someValue⟩

theorem small_offers (p : Addr) : (Newcomer.small p).Offers .small where
  platformIds := rfl
  count := ⟨[], rfl⟩
  deviceIds := ⟨1, rfl⟩
  ne_zero := by decide
  info _ := rfl
  noZero _ := show (0 : UInt8) ∉ [65] by decide
  fits := show (Provider.describe (smallQueries.clGetPlatformInfo 77) zeros
    Provider.platformInfoList 77).length ≤ _ by decide +kernel
  device id hid := by
    obtain rfl := List.mem_singleton.mp hid
    exact
      { ne_zero := by decide
        info := fun _ => rfl
        conforms := Library.small_reports.conforms
        platform := rfl
        fits := show (Provider.describe (smallQueries.clGetDeviceInfo 78) zeros
          Provider.deviceInfoList 78).length ≤ _ by decide +kernel }

theorem small_awaited {p : Addr} (hp : p = 1 ∨ p = 3) :
    (Newcomer.small p).Awaited .expecting := by
  rcases hp with rfl | rfl <;>
    exact ⟨⟨_, rfl⟩, rfl, rfl, rfl, fun _ _ ⟨_, _, ha, _⟩ => absurd ha nofun⟩

theorem expecting_drawsDistinct : Agent.State.expecting.DrawsDistinct 4 := by
  unfold Agent.State.DrawsDistinct Agent.State.New
  decide

/-- Two providers with the same library. -/
theorem enrol_mirrors_two :
    ∃ s' qs, enrol [Newcomer.small 1, Newcomer.small 3] Agent.State.expecting = .done s' qs ∧
      Agent.Receptive s' ∧ List.Forall₂ (fun c q => q.1 = true ∧ ∃ pf a,
        c.Serves Profile.small s' pf a q.2) [Newcomer.small 1, Newcomer.small 3] qs := by
  have hmem : ∀ c ∈ [Newcomer.small 1, Newcomer.small 3], ∃ p, (p = 1 ∨ p = 3) ∧
      c = Newcomer.small p := by
    intro c hc
    rcases List.mem_cons.mp hc with rfl | hc
    · exact ⟨1, .inl rfl, rfl⟩
    · exact ⟨3, .inr rfl, List.mem_singleton.mp hc⟩
  have hawaited : ∀ c ∈ [Newcomer.small 1, Newcomer.small 3],
      c.Awaited Agent.State.expecting := by
    intro c hc
    obtain ⟨p, hp, rfl⟩ := hmem c hc
    exact small_awaited hp
  have hoffers : ∀ c ∈ [Newcomer.small 1, Newcomer.small 3],
      c.Offers ((fun _ => .small : Newcomer Unit → Profile) c) := by
    intro c hc
    obtain ⟨p, -, rfl⟩ := hmem c hc
    exact small_offers p
  exact enrol_mirrors Agent.expecting_receptive (by decide) hawaited hoffers expecting_drawsDistinct

end Clara.Joint
