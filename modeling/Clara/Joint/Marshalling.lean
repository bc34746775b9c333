import Clara.Agent.Phases
import Clara.Consumer.Calls
import Clara.Joint.Session

/-! An EXECUTE request from the consumer's call to its result: through the two phases of the agent
and the handler of the provider. -/
namespace Clara.Joint

open Conc

variable {Cl : Type} {g : Session Cl} {x : Trio Cl} {y : Pair Cl} {provider : Agent.Provider}

/-- The consumer's request for a function that the provider serves; `ptrargs` are its pointer
arguments there. -/
structure Requests (g : Session Cl) (s : Agent.State)
    (idMap : IdSet GlobalId Arg) (d : ClFunction) (ptrargs : List ℕ) (func hint : Arg)
    (args : List Arg) : Prop where
  function : ClFunction.ofArg func = some (d, args.length)
  info : d ≠ .getDeviceInfo
  unload : d ≠ .unloadCompiler
  hint : Hints g.p s hint
  owner : Agent.countsReferences d = true →
    ∃ a o, Agent.OwnedBy s g.c (args.getD 0 0) a o
  known : ∀ i w, args[i]? = some w → w ≠ 0 → i + 1 ∈ ptrargs → w ∈ idMap

def executeBytes (func hint : Arg) (args : List Arg) : Bytes :=
  Bytes.words (hint :: func :: 0 :: args)

/-- What a word of the request is for the handler. -/
def seenArg (idMap : IdSet GlobalId Arg) (ptrargs : List ℕ) (i : ℕ) (w : Arg) : Arg :=
  if w ≠ 0 ∧ i ∈ ptrargs then (idMap.lookup w).getD 0 else w

theorem length_executeBytes (func hint : Arg) (args : List Arg) :
    (executeBytes func hint args).length = 8 * (3 + args.length) := by
  rw [executeBytes, Bytes.length_words]
  simp only [List.length_cons]
  omega

theorem Requests.prepare {s : Agent.State} {q : Provider.State Cl}
    {d : ClFunction} {ptrargs : List ℕ} {func hint : Arg} {args : List Arg}
    (h : Requests g s q.idMap d ptrargs func hint args) (hq : q.Sound)
    {pfn : Provider.Handler Cl} (hf : Provider.execFunTable g.lib d = some (pfn, ptrargs)) :
    ∃ buf, Provider.prepare (Provider.execFunTable g.lib) (Provider.providerIdMap q.idMap)
        (q.took (executeBytes func hint args)).buf 0 = .call d pfn args.length buf ∧
      ∀ i, (hi : i < args.length) →
        Provider.argvOf buf (i + 1) = seenArg q.idMap ptrargs (i + 1) args[i] := by
  have hargc := ClFunction.argc_le h.function
  have hm : (Bytes.words (hint :: func :: 0 :: args)).length ≤ Provider.recvbufsz := by
    have hlen := length_executeBytes func hint args
    rw [executeBytes] at hlen
    unfold Provider.recvbufsz
    omega
  have hword : ∀ i w, (hint :: func :: 0 :: args)[i]? = some w →
      (q.took (executeBytes func hint args)).buf.word i = w := fun i w hw =>
    q.took_word_words hm hw
  have harg : ∀ i, 1 ≤ i → i < 1 + args.length → ∃ w, args[i - 1]? = some w ∧
      Provider.argvOf (q.took (executeBytes func hint args)).buf i = w := by
    intro i hi hlt
    refine ⟨args[i - 1], List.getElem?_eq_getElem (by omega), hword _ _ ?_⟩
    rw [show 2 + i = (i - 1) + 3 by omega]
    simp only [List.getElem?_cons_succ]
    exact List.getElem?_eq_getElem (by omega)
  have htranslate : ∀ i, 1 ≤ i → i < 1 + args.length → ∀ w, args[i - 1]? = some w →
      Provider.translateArg (Provider.providerIdMap q.idMap) ptrargs i w =
        some (seenArg q.idMap ptrargs i w) := by
    intro i hi hlt w hw
    rw [Provider.translateArg, seenArg]
    split_ifs with hc
    · obtain ⟨a, ha⟩ := IdSet.mem_iff.mp (h.known (i - 1) w hw hc.1 (by
        rw [Nat.sub_add_cancel hi]
        exact hc.2))
      rw [Provider.providerIdMap, hq.idMap, ha]
      rfl
    · rfl
  have hfunc : ClFunction.ofArg ((q.took (executeBytes func hint args)).buf.word 1) =
      some (d, args.length) := by
    rw [hword 1 func rfl, h.function]
  have hmap : ∀ i, 1 ≤ i → i < 1 + args.length →
      Provider.translateArg (Provider.providerIdMap q.idMap) ptrargs i
        (Provider.argvOf (q.took (executeBytes func hint args)).buf i) ≠ none := by
    intro i hi hlt
    obtain ⟨w, hw, heq⟩ := harg i hi hlt
    rw [heq, htranslate i hi hlt w hw]
    exact Option.some_ne_none _
  obtain ⟨buf, hprepare, hseen⟩ := Provider.prepare_mapped hfunc hf 0 hmap
  refine ⟨buf, hprepare, fun i hi => ?_⟩
  obtain ⟨w, hw, heq⟩ := harg (i + 1) (by omega) (by omega)
  have hrun := hseen (i + 1) (by omega) (by omega)
  rw [heq, htranslate (i + 1) (by omega) (by omega) w hw] at hrun
  rw [Nat.add_sub_cancel, List.getElem?_eq_getElem hi] at hw
  rw [Option.some.inj hw]
  exact (Option.some.inj hrun).symm

theorem beside_const (s : Agent.State) : Beside g.toSetting fun s' => s.withNet s'.net where
  conn _ := rfl
  push _ _ := rfl

/-- The first phase has changed nothing that the connection to the provider is about. -/
theorem Settles.untouched (h : Settles g.toSetting x.pair y) {s : Agent.State}
    (hs : Agent.Untouched x.pair.agent s) :
    { x.pair with agent := s } = x.pair.onAgent (fun s' => s.withNet s'.net) ∧
      Settles g.toSetting (x.pair.onAgent fun s' => s.withNet s'.net)
        (y.onAgent fun s' => s.withNet s'.net) := by
  refine ⟨?_, h.onAgent (beside_const s)⟩
  rw [Pair.onAgent, ← hs.net]
  rfl

theorem Attached.untouched (ha : Attached g.toSetting provider y)
    (h : Settles g.toSetting x.pair y) {s : Agent.State} (hs : Agent.Untouched x.pair.agent s) :
    Attached g.toSetting provider (y.onAgent fun s' => s.withNet s'.net) := by
  have hrecord : x.pair.agent.heap .provider g.p = some provider := by
    rw [h.heap, ha.record]
  have hlock : x.pair.agent.heap .lock provider.lock = some .free := by
    rw [h.heap, ha.lock]
  refine ⟨?_, (hs.lock g.p provider hrecord).trans hlock⟩
  show s.heap .provider g.p = some provider
  rw [hs.provider, hrecord]

theorem run_executeOwner {s : Agent.State} {t : Agent.Tid} (hu : Agent.Usable t .objects s)
    {hint : GlobalId} (h : Hints g.p s hint) :
    Agent.run t (Agent.executeOwner hint) s = .done s (some g.p) := by
  obtain ⟨hne, a, o, hid, ho, hp⟩ := h
  rw [Agent.executeOwner, if_pos hne, Agent.run_bind, Agent.findHint, Agent.run_bind,
    Agent.run_setFind hu, Outcome.bind_done, hid]
  simp only [Prog.run_pure, Outcome.bind_done]
  rw [Agent.run_bind, Agent.run_read ho, Outcome.bind_done, hp]
  rfl

/-- What the provider's library is asked, and what the agent then knows. -/
def Pair.executed (y : Pair Cl) (s : Agent.State) (q : Provider.State Cl) (msg : Bytes)
    (ret : Arg) : Pair Cl :=
  (y.onAgent fun s' => s.withNet s'.net).served
    { q with buf := Provider.setArgv q.buf 0 ret } [.msg Msg.executeRequest msg]
    [.msg Msg.executeResponse (Bytes.word ret)]

/-- The consumer's thread, up to the second phase. -/
theorem Ready.run_handleExecute (h : Ready g provider x y)
    (hb : Agent.Serviceable x.pair.agent) {d : ClFunction} {params : ExecuteRequest} {argc : ℕ}
    (hd : ClFunction.ofArg params.func = some (d, argc)) (hinfo : d ≠ .getDeviceInfo)
    (hpost : Agent.PostEntry g.lzo g.fuel d) (h0 : params.argv 0 = 0)
    (ho : Agent.countsReferences d = true →
      ∃ a o, Agent.OwnedBy x.pair.agent g.c (params.argv 1) a o)
    (hhint : Hints g.p x.pair.agent params.hint) {q : Provider.State Cl} {ret : Arg}
    (hw : g.Works [.msg Msg.executeRequest params.bytes]
      [.msg Msg.executeResponse (Bytes.word ret)] y.provider
      { q with buf := Provider.setArgv q.buf 0 ret }) :
    ∃ s, Agent.Untouched x.pair.agent s ∧
      (Agent.countsReferences d = false → s = x.pair.agent) ∧
      run g.toSetting (.consumer g.c) (Agent.handleExecute g.lzo g.fuel g.c params) x.pair =
        (run g.toSetting (.consumer g.c) (Agent.postHandler g.lzo g.fuel d
          (params.setArg 0 ret) (some g.p) g.c) (y.executed s q params.bytes ret)).bind
            fun z params' => .done (z.onAgent (toConsumer g.c
              [.msg Msg.executeResponse (Bytes.word (params'.argv 0))])) () := by
  obtain ⟨s, hpre, hs, hsame⟩ := hb.run_pre hd hinfo h0 ho (some g.p)
  obtain ⟨hput, hset⟩ := h.settles.untouched hs
  refine ⟨s, hs, hsame, ?_⟩
  have howner : run g.toSetting (.consumer g.c) (Agent.executeOwner params.hint) x.pair =
      .done x.pair (some g.p) := run_done (run_executeOwner hb.usable_objects hhint)
  have hremote := hset.run_agentRemoteExecute (t := .consumer g.c)
    (h.attached.untouched h.settles hs) hw
  have hconn : (y.executed s q params.bytes ret).agent.net (.consumer g.c) = .fresh := by
    show y.agent.net (.consumer g.c) = .fresh
    have hne : Agent.Sd.consumer g.c ≠ .provider g.p := (consumer_ne g.p g.c).symm
    rw [← h.settles.conn hne, h.idle.conn]
  rw [Agent.handleExecute, Agent.agentExecute, Prog.bind_assoc', run_bind, howner,
    Outcome.bind_done, Prog.bind_assoc', run_bind, run_done hpre, Outcome.bind_done, hput]
  simp only [Prog.bind_assoc']
  rw [run_bind, Agent.executeRemote, if_pos (by rfl), run_bind, hremote, Outcome.bind_done]
  simp only [run_pure, Outcome.bind_done]
  have hsecond := hpost.run hd (Agent.agentIdMap g.c) ret (some g.p) g.c
  rw [← Prog.bind_assoc', hsecond, Prog.bind_assoc', run_bind]
  show (run _ _ _ (y.executed s q params.bytes ret)).bind _ = _
  cases hz : run g.toSetting (.consumer g.c) (Agent.postHandler g.lzo g.fuel d
      (params.setArg 0 ret) (some g.p) g.c) (y.executed s q params.bytes ret) with
  | done z params' =>
    have hf : (z.agent.net (.consumer g.c)).sendFails = [] := by
      rw [run_conn (hpost.all _ _ _) (by decide) (by decide) hz, hconn]
      rfl
    have hsend : run g.toSetting (.consumer g.c) (Agent.net (sendRequest (.consumer g.c)
        Msg.executeResponse (Bytes.word (params'.argv 0)))) z =
        .done (z.onAgent (toConsumer g.c
          [.msg Msg.executeResponse (Bytes.word (params'.argv 0))])) true :=
      run_net_done (Net.run_sendRequest hf _ _)
    rw [Outcome.bind_done, Outcome.bind_done, Prog.pure_bind', run_bind,
      claraSendExecuteResponse, if_pos rfl, hsend, Outcome.bind_done]
    rfl
  | fault e => rfl
  | blocked => rfl

theorem postEntry_of_execFunTable {lib : Provider.OpenCl Cl} {d : ClFunction}
    {e : Provider.Handler Cl × List ℕ} (hf : Provider.execFunTable lib d = some e)
    (hinfo : d ≠ .getDeviceInfo) (hunload : d ≠ .unloadCompiler) (lzo : Lzo) (fuel : ℕ) :
    Agent.PostEntry lzo fuel d := by
  cases d <;> first
    | exact .none rfl
    | exact .create rfl
    | exact .mapEvent _ rfl
    | exact absurd rfl hinfo
    | exact absurd rfl hunload
    | cases hf

theorem executeBytes_eq {params : ExecuteRequest} {args : List Arg} (h0 : params.argv 0 = 0)
    (hargc : params.argc = args.length)
    (hargs : ∀ i, (h : i < args.length) → params.argv (i + 1) = args[i]) :
    params.bytes = executeBytes params.func params.hint args := by
  have htail : (List.range args.length).map (fun i => params.argv (i + 1)) = args := by
    apply List.ext_getElem (by simp)
    intro i hi hi'
    rw [List.getElem_map, List.getElem_range, hargs i hi']
  rw [ExecuteRequest.bytes, hargc, executeBytes, List.range_succ_eq_map, List.map_cons,
    List.map_map, h0]
  exact congrArg (fun l => Bytes.words (params.hint :: params.func :: 0 :: l)) htail

/-- A call of the consumer library, from the state it is made in to its result. -/
theorem Ready.call_consumerExecute (h : Ready g provider x y)
    (hb : Agent.Serviceable x.pair.agent) {d : ClFunction} {ptrargs : List ℕ} {func hint : Arg}
    {args : List Arg}
    (hr : Requests g x.pair.agent y.provider.idMap d ptrargs func hint args)
    {pfn : Provider.Handler Cl} (hf : Provider.execFunTable g.lib d = some (pfn, ptrargs))
    {buf : Buffer Provider.recvbufsz} {q : Provider.State Cl} {ret : Arg}
    (hp : Provider.prepare (Provider.execFunTable g.lib)
      (Provider.providerIdMap y.provider.idMap)
      (y.provider.took (executeBytes func hint args)).buf 0 = .call d pfn args.length buf)
    (hrun : pfn (Provider.argvOf buf)
      { y.provider.took (executeBytes func hint args) with buf := buf } = .done q ret)
    (retbuflen : ℕ) :
    ∃ s params, Agent.Untouched x.pair.agent s ∧
      (Agent.countsReferences d = false → s = x.pair.agent) ∧ params.argv 0 = ret ∧
      (∀ i, (hi : i < args.length) → params.argv (i + 1) = args[i]) ∧
      call g (Consumer.consumerExecute func retbuflen hint args) x =
        ((run g.toSetting (.consumer g.c) (Agent.postHandler g.lzo g.fuel d params
          (some g.p) g.c) (y.executed s q (executeBytes func hint args) ret)).map
            (fun z => (⟨.wire [] [], z⟩ : Trio Cl)) .server).bind fun z params' =>
              .done z (some ((Bytes.word (params'.argv 0)).take retbuflen)) := by
  have hargc := ClFunction.argc_le hr.function
  have hlen := length_executeBytes func hint args
  have hm : (executeBytes func hint args).length ≤ Agent.recvbufsz := by
    unfold Agent.recvbufsz
    omega
  obtain ⟨params, hparse, hphint, hpfunc, h0, hpargc, hpargs⟩ := Agent.parse_execute
    (g.stale (x.pair.heard g.c (.msg Msg.executeRequest (executeBytes func hint args)))) hint func
    hargc
  have hbytes : params.bytes = executeBytes func hint args := by
    rw [executeBytes_eq h0 hpargc hpargs, hpfunc, hphint]
  have hw : g.Works [.msg Msg.executeRequest params.bytes]
      [.msg Msg.executeResponse (Bytes.word ret)] y.provider
      { q with buf := Provider.setArgv q.buf 0 ret } := by
    rw [hbytes]
    refine Provider.works_execute ?_ (Provider.claraExecute_call g.lib hp hrun)
    unfold Provider.recvbufsz
    omega
  have howner : Agent.countsReferences d = true →
      ∃ a o, Agent.OwnedBy x.pair.agent g.c (params.argv 1) a o := by
    intro hc
    have hpos : 0 < args.length := by
      have hcount : ∀ e ∈ ClFunction.clfuninfo, Agent.countsReferences e.1 = true → 0 < e.2 := by
        decide
      exact hcount _ (List.mem_of_getElem? hr.function) hc
    rw [hpargs 0 hpos]
    have ho := hr.owner hc
    rwa [List.getD, List.getElem?_eq_getElem hpos, Option.getD_some] at ho
  have hfunc : ClFunction.ofArg params.func = some (d, args.length) := by
    rw [hpfunc, hr.function]
  have hhint : Hints g.p x.pair.agent params.hint := by
    rw [hphint]
    exact hr.hint
  obtain ⟨s, hs, hsame, hhandle⟩ := h.run_handleExecute hb hfunc hr.info
    (postEntry_of_execFunTable hf hr.info hr.unload g.lzo g.fuel) h0 howner hhint hw
  refine ⟨s, params.setArg 0 ret, hs, hsame, by simp [ExecuteRequest.setArg], fun i hi => ?_, ?_⟩
  · simp [ExecuteRequest.setArg, hpargs i hi]
  rw [hbytes] at hhandle
  have hsend := h.idle.call_sendRequest Msg.executeRequest (executeBytes func hint args)
  have hconn : (y.executed s q (executeBytes func hint args) ret).agent.net (.consumer g.c) =
      .fresh := by
    show y.agent.net (.consumer g.c) = .fresh
    have hne : Agent.Sd.consumer g.c ≠ .provider g.p := (consumer_ne g.p g.c).symm
    rw [← h.settles.conn hne, h.idle.conn]
  have hphase : (y.executed s q (executeBytes func hint args) ret).agent.phase (.consumer g.c) =
      .serving := by
    show s.phase (.consumer g.c) = .serving
    rw [hs.phase, h.idle.phase]
  rw [Consumer.consumerExecute, call_bind, claraSendExecuteRequest]
  change ((call g (sendRequest () Msg.executeRequest (executeBytes func hint args)) x).bind _) = _
  rw [hsend, Outcome.bind_done, if_pos rfl, claraRecvExecuteResponse, recvWord, Prog.bind_assoc']
  cases hz : run g.toSetting (.consumer g.c) (Agent.postHandler g.lzo g.fuel d
      (params.setArg 0 ret) (some g.p) g.c)
      (y.executed s q (executeBytes func hint args) ret) with
  | done z params' =>
    rw [hz, Outcome.bind_done] at hhandle
    have hzconn : z.agent.net (.consumer g.c) = .fresh := by
      rw [run_conn ((postEntry_of_execFunTable hf hr.info hr.unload g.lzo g.fuel).all _ _ _)
        (by decide) (by decide) hz, hconn]
    have hzphase : z.agent.phase (.consumer g.c) = .serving := by
      rw [run_phase ((postEntry_of_execFunTable hf hr.info hr.unload g.lzo g.fuel).all _ _ _)
        (by decide) hz]
      exact hphase
    rw [h.idle.call_answered hm hparse hzconn hzphase hhandle (by simp)]
    simp [Received.stored]
  | fault e =>
    rw [hz] at hhandle
    exact h.idle.call_fault hm hparse hhandle 8 _
  | blocked =>
    rw [hz] at hhandle
    exact h.idle.call_blocked hm hparse hhandle 8 _

/-- The handler `entry` is called once, with the words of the request for its arguments. What it
leaves in `argv[0]` is the consumer's result, the second phase apart. -/
def Marshals (g : Session Cl) (x : Trio Cl) (y : Pair Cl) (d : ClFunction)
    (entry : Provider.Handler Cl × List ℕ) (func hint : Arg) (args : List Arg) : Prop :=
  ∃ buf, Provider.prepare (Provider.execFunTable g.lib)
      (Provider.providerIdMap y.provider.idMap)
      (y.provider.took (executeBytes func hint args)).buf 0 =
        .call d entry.1 args.length buf ∧
    (∀ i, (hi : i < args.length) →
      Provider.argvOf buf (i + 1) = seenArg y.provider.idMap entry.2 (i + 1) args[i]) ∧
    ∀ q ret, entry.1 (Provider.argvOf buf)
        { y.provider.took (executeBytes func hint args) with buf := buf } = .done q ret →
      ∀ retbuflen, ∃ s params, Agent.Untouched x.pair.agent s ∧
        (Agent.countsReferences d = false → s = x.pair.agent) ∧ params.argv 0 = ret ∧
        (∀ i, (hi : i < args.length) → params.argv (i + 1) = args[i]) ∧
        call g (Consumer.consumerExecute func retbuflen hint args) x =
          ((run g.toSetting (.consumer g.c) (Agent.postHandler g.lzo g.fuel d params
            (some g.p) g.c) (y.executed s q (executeBytes func hint args) ret)).map
              (fun z => (⟨.wire [] [], z⟩ : Trio Cl)) .server).bind fun z params' =>
                .done z (some ((Bytes.word (params'.argv 0)).take retbuflen))

/-- Marshalling is exact. -/
theorem marshals (h : Ready g provider x y) (hb : Agent.Serviceable x.pair.agent)
    {d : ClFunction} {entry : Provider.Handler Cl × List ℕ} {func hint : Arg} {args : List Arg}
    (hr : Requests g x.pair.agent y.provider.idMap d entry.2 func hint args)
    (hf : Provider.execFunTable g.lib d = some entry) :
    Marshals g x y d entry func hint args := by
  obtain ⟨buf, hp, hseen⟩ := hr.prepare h.sound hf
  refine ⟨buf, hp, hseen, fun q ret hrun retbuflen => ?_⟩
  exact h.call_consumerExecute hb hr hf hp hrun retbuflen

/-- A consumer of the small agent. -/
def Session.small : Session Unit where
  toSetting := .small
  c := 3
  stale _ := ⟨List.replicate Agent.recvbufsz 0, List.length_replicate⟩

/-- The three when nothing has been sent yet. -/
def Trio.small : Trio Unit := ⟨.wire [] [], .small⟩

theorem ready_small : Ready Session.small ⟨0, 2, true⟩ Trio.small Pair.small where
  idle := ⟨rfl, rfl, rfl⟩
  settles := quiet_small.settles
  attached := attached_small
  sound := sound_small

theorem serviceable_small : Agent.Serviceable Trio.small.pair.agent :=
  (Agent.small_settled _).toServiceable

theorem hints_small : Hints 1 Trio.small.pair.agent 9 :=
  ⟨by decide, 6, _, by decide, rfl, rfl⟩

/-- The small pair once the provider has the object of id 9, and has taken 10 for one more. -/
def Pair.mapped : Pair Unit where
  agent := Pair.small.agent.withId
  provider := { Pair.small.provider with idMap := (IdSet.empty.add 9 77).add 10 1 }
  log := []

theorem ready_mapped : Ready Session.small ⟨0, 2, true⟩ ⟨.wire [] [], .mapped⟩ .mapped where
  idle := ⟨rfl, rfl, rfl⟩
  settles := Quiet.settles ⟨rfl, rfl⟩
  attached := ⟨rfl, rfl⟩
  sound := ⟨rfl, rfl, sound_small.keyed⟩

theorem serviceable_mapped : Agent.Serviceable Pair.mapped.agent :=
  serviceable_small.withId (by decide)

theorem hints_mapped : Hints 1 Pair.mapped.agent 9 := ⟨by decide, 6, _, by decide, rfl, rfl⟩

/-- `clEnqueueTask` with no events to wait for: its pointers are translated, `NULL` stays. -/
theorem marshals_enqueueTask : (∃ entry : Provider.Handler Unit × List ℕ,
      entry.2 = [1, 2, 4, 5] ∧ Marshals Session.small ⟨.wire [] [], .mapped⟩ .mapped .enqueueTask
        entry 53 9 [9, 9, 0, 0, 10]) ∧
    List.zipWith (seenArg Pair.mapped.provider.idMap [1, 2, 4, 5]) [1, 2, 3, 4, 5]
      [9, 9, 0, 0, 10] = [77, 77, 0, 0, 1] := by
  refine ⟨⟨_, rfl, marshals ready_mapped serviceable_mapped
    ⟨rfl, nofun, nofun, hints_mapped, nofun, fun i w hw hne _ => ?_⟩ rfl⟩, by decide⟩
  have hmem := List.mem_of_getElem? hw
  simp only [List.mem_cons, List.not_mem_nil, or_false] at hmem
  obtain rfl | rfl | rfl | rfl | rfl := hmem
  · decide
  · decide
  · exact absurd rfl hne
  · exact absurd rfl hne
  · decide

end Clara.Joint
