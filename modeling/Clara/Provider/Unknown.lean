import Clara.Provider.Isolation
import Clara.Provider.Service

/-! Requests that name an id the provider does not know: in an argument, as the destination of a
MEMPUT, as the handle of a FETCH, or in the lists of `clCreateContext`. -/
namespace Clara.Provider

open Conc PProg

/-- A request that the agent passes on, as it comes from the agent. -/
inductive Forwarded
  | execute (msg : Bytes)
  | memput (params : MemputStreamParams) (stp : StreamOptions) (data : Bytes)
  | fetch (params : FetchRequest)

def Forwarded.records (lzo : Lzo) : Forwarded → List Sent
  | .execute msg => [.msg Msg.executeRequest msg]
  | .memput params stp data =>
    .msg Msg.memputStream params.bytes :: streamRecords lzo stp data
  | .fetch params => [.msg Msg.fetchRequest params.bytes]

/-- What the protocol has for a request without success: an empty response to EXECUTE, none to
MEMPUT. There is no such response to FETCH, so that any will do. -/
def Forwarded.Unsuccessful : Forwarded → List Sent → Prop
  | .execute _, out => out = [.msg Msg.executeResponse []]
  | .memput _ _ _, out => out = []
  | .fetch _, _ => True

variable {Cl : Type} {lzo : Lzo} {fuel : ℕ} {lib : OpenCl Cl} {s s' : State Cl}

def State.UnknownArgument (lib : OpenCl Cl) (s : State Cl) : Prop :=
  ∃ d argc pfn ptrargs i, ClFunction.ofArg (s.buf.word 1) = some (d, argc) ∧
    execFunTable lib d = some (pfn, ptrargs) ∧ 1 ≤ i ∧ i ≤ argc ∧ i ∈ ptrargs ∧
    argvOf s.buf i ≠ 0 ∧ argvOf s.buf i ∉ s.idMap

def State.argument (s : State Cl) (i : ℕ) : Bytes := s.contents (argvOf s.buf i)

/-- A platform in the properties, or a device in the list, that the provider does not have. -/
def State.UnknownInContext (s : State Cl) : Prop :=
  ClFunction.ofArg (s.buf.word 1) = some (.createContext, 6) ∧
    ((∃ i, 16 * i + 16 ≤ (s.argument 1).length ∧ (∀ j ≤ i, (s.argument 1).wordAt (2 * j) ≠ 0) ∧
        (s.argument 1).wordAt (2 * i) = clContextPlatform ∧
        ∀ platform ∈ s.platforms, platform.globalId ≠ (s.argument 1).wordAt (2 * i + 1)) ∨
      ∃ i, i < (toUint (argvOf s.buf 2)).toNat ∧ 8 * i + 8 ≤ (s.argument 3).length ∧
        ∀ platform ∈ s.platforms, ∀ device ∈ platform.devices,
          device.globalId ≠ (s.argument 3).wordAt i)

/-- The request names an id that the provider does not know. -/
def Forwarded.NamesUnknown (lib : OpenCl Cl) (s : State Cl) : Forwarded → Prop
  | .execute msg => msg.length ≤ recvbufsz ∧
    ((s.took msg).UnknownArgument lib ∨ (s.took msg).UnknownInContext)
  | .memput params _ _ => params.dst ∉ s.idMap
  | .fetch params => ∀ id a, s.allocations.lookup id = some a → a.handle ≠ params.handle

/-- The provider goes on, after the unsuccessful response and with the same ids. -/
def Forwarded.Survived (lzo : Lzo) (fuel : ℕ) (lib : OpenCl Cl) (s : State Cl)
    (r : Forwarded) : Prop :=
  ∃ out s', Works lzo fuel lib (r.records lzo) out s s' ∧ r.Unsuccessful out ∧
    s'.idMap = s.idMap ∧ s'.allocations = s.allocations

theorem Breaks.append {rs : List Sent} {f : Fault} (h : Breaks lzo fuel lib rs f s)
    (rs' : List Sent) : Breaks lzo fuel lib (rs ++ rs') f s := by
  obtain ⟨n, hn, hbreak⟩ := h
  refine ⟨n, ?_, fun q o m => ?_⟩
  · rw [List.length_append]
    omega
  · rw [Net.incoming_append, List.append_assoc, hbreak]

theorem providerIdMap_of_not_mem {map : IdSet GlobalId Arg} {id : GlobalId} (h : id ∉ map) :
    providerIdMap map id = none := by
  rw [providerIdMap]
  split_ifs
  · rfl
  · exact IdSet.not_mem_iff.mp h

theorem State.UnknownArgument.prepare (h : s.UnknownArgument lib) (retval : Arg) :
    prepare (execFunTable lib) (providerIdMap s.idMap) s.buf retval = .abort := by
  obtain ⟨d, argc, pfn, ptrargs, i, hd, hf, hi, hle, hptr, hne, hid⟩ := h
  have hargc := ClFunction.argc_le hd
  have hspec := translateArgs_spec (providerIdMap s.idMap) ptrargs argc 1 (by omega)
    (setArgv s.buf 0 retval)
  rw [Provider.prepare, hd]
  simp only [hf]
  cases htr : translateArgs (providerIdMap s.idMap) ptrargs 1 argc (setArgv s.buf 0 retval) with
  | none => rfl
  | some buf' =>
    rw [htr] at hspec
    have harg := hspec.1 i hi (by omega)
    rw [argvOf_setArgv_of_ne (by omega : i ≠ 0), translateArg, if_pos ⟨hne, hptr⟩,
      providerIdMap_of_not_mem hid] at harg
    cases harg

theorem breaks_execute {msg : Bytes} (hm : msg.length ≤ recvbufsz)
    (h : (s.took msg).UnknownArgument lib) :
    Breaks lzo fuel lib [.msg Msg.executeRequest msg] (.assertion .idMap) s := by
  have hexec : claraExecute lib 0 (s.took msg) = .fault (.assertion .idMap) := by
    rw [claraExecute, bind_run, get_run, Outcome.bind_done, h.prepare]
    rfl
  apply Breaks.message hm
  intro q o
  have hblind := (keeping_claraExecute lib 0).blind (s.took msg) (.wire q o)
  rw [hexec, Outcome.map_fault] at hblind
  show handleExecute lib _ = _
  rw [handleExecute, bind_run, hblind]
  rfl

/-- An unknown destination, in a set that may be damaged. -/
theorem breaks_memput {params : MemputStreamParams} (h : params.dst ∉ s.idMap)
    (stp : StreamOptions) (data : Bytes) :
    ∃ f, Breaks lzo fuel lib (.msg Msg.memputStream params.bytes :: streamRecords lzo stp data)
      f s := by
  have hm : params.bytes.length ≤ recvbufsz := length_words_le _ (by decide : 4 ≤ 5)
  have h0 : (s.took params.bytes).buf.word 0 = params.dst := s.took_word_words hm rfl
  have hnone := IdSet.not_mem_iff.mp h
  suffices hf : ∃ f, Breaks lzo fuel lib [.msg Msg.memputStream params.bytes] f s by
    obtain ⟨f, hf⟩ := hf
    exact ⟨f, hf.append (streamRecords lzo stp data)⟩
  have hrun : ∀ q o, handleMessage lzo fuel lib Msg.memputStream params.bytes.length
      ((s.took params.bytes).withNet (.wire q o)) =
        handleMemput lzo fuel ((s.took params.bytes).withNet (.wire q o)) := fun _ _ => rfl
  cases hd : s.idMap.damaged with
  | true =>
    refine ⟨.freedMemory, Breaks.message hm fun q o => ?_⟩
    have hfind : mappingFindByVirt params.dst ((s.took params.bytes).withNet (.wire q o)) =
        .fault .freedMemory := by
      simp [mappingFindByVirt, IdSet.setFind, ofSet, State.took, hd]
    rw [hrun, handleMemput, bind_run, bufWord, get_run, Outcome.bind_done, State.withNet_buf, h0,
      bind_run, hfind]
    rfl
  | false =>
    refine ⟨.assertion .memputDst, Breaks.message hm fun q o => ?_⟩
    have hfind : mappingFindByVirt params.dst ((s.took params.bytes).withNet (.wire q o)) =
        .done ((s.took params.bytes).withNet (.wire q o)) none := by
      rw [mappingFindByVirt_run (by exact hd), ← hnone]
      rfl
    rw [hrun, handleMemput, bind_run, bufWord, get_run, Outcome.bind_done, State.withNet_buf, h0,
      bind_run, hfind]
    rfl

theorem breaks_fetch_unknown {params : FetchRequest}
    (h : ∀ id a, s.allocations.lookup id = some a → a.handle ≠ params.handle) :
    ∃ f, Breaks lzo fuel lib [.msg Msg.fetchRequest params.bytes] f s := by
  have hf := s.took_fetches params
  have hm := FetchRequest.length_bytes_le params
  have hnone : (s.allocations.items.map Prod.snd).find? (fun a => a.handle == params.handle) =
      none := by
    rw [List.find?_eq_none]
    intro a ha
    obtain ⟨x, hx, rfl⟩ := List.mem_map.mp ha
    simpa using h x.1 x.2 (IdSet.mem_items.mp hx)
  have hrun : ∀ q o, handleMessage lzo fuel lib Msg.fetchRequest params.bytes.length
      ((s.took params.bytes).withNet (.wire q o)) =
        handleFetch lzo ((s.took params.bytes).withNet (.wire q o)) := fun _ _ => rfl
  cases hd : s.allocations.damaged with
  | true =>
    refine ⟨.freedMemory, Breaks.message hm fun q o => ?_⟩
    have hfind : claraFindAllocation params.handle ((s.took params.bytes).withNet (.wire q o)) =
        .fault .freedMemory := by
      simp [claraFindAllocation, IdSet.setList, ofSet, State.took, hd]
    rw [hrun, handleFetch, bind_run, bufWord, get_run, Outcome.bind_done, State.withNet_buf,
      hf.handle, bind_run, hfind]
    rfl
  | false =>
    refine ⟨.nullPointer, Breaks.message hm fun q o => ?_⟩
    have hfind : claraFindAllocation params.handle ((s.took params.bytes).withNet (.wire q o)) =
        .done ((s.took params.bytes).withNet (.wire q o)) none := by
      rw [claraFindAllocation_run (by exact hd), ← hnone]
      rfl
    rw [hrun, handleFetch, bind_run, bufWord, get_run, Outcome.bind_done, State.withNet_buf,
      hf.handle, bind_run, hfind, Outcome.bind_done]
    simp only [bufWord, bind_run, get_run, Outcome.bind_done]
    split_ifs
    · rfl
    · rfl

/-- What the provider sends after an EXECUTE request is never empty. -/
theorem Works.executeResponse {msg : Bytes} (hm : msg.length ≤ recvbufsz) {out : List Sent}
    (h : Works lzo fuel lib [.msg Msg.executeRequest msg] out s s') :
    ∃ ret, out = [.msg Msg.executeResponse (Bytes.word ret)] := by
  obtain ⟨n, -, hrun⟩ := h
  have hdone := hrun [] [] 1
  have hturn : providerTurn lzo fuel lib
      (s.withNet (.wire (Net.incoming [.msg Msg.executeRequest msg]) [])) =
        (handleExecute lib ((s.took msg).withNet (.wire [] []))).bind fun s _ => .done s true := by
    rw [providerTurn_message (q := []) (by rfl) hm]
    rfl
  have hblind := (keeping_claraExecute lib 0).blind (s.took msg) (.wire [] [])
  rw [providerMain_idle, providerMain_succ, List.append_nil, List.nil_append, hturn] at hdone
  cases hx : claraExecute lib 0 (s.took msg) with
  | done s₁ ret =>
    rw [hx, Outcome.map_done] at hblind
    rw [handleExecute_run (by rfl) hblind, Outcome.bind_done, State.withNet_sends] at hdone
    simp only [providerMain_idle, List.nil_append] at hdone
    have hnet := congrArg State.net (Outcome.done.inj hdone).1
    exact ⟨ret, (congrArg (fun n => (n ()).sent) hnet).symm⟩
  | fault f =>
    rw [hx, Outcome.map_fault] at hblind
    rw [handleExecute, bind_run, hblind] at hdone
    cases hdone
  | blocked =>
    rw [hx, Outcome.map_blocked] at hblind
    rw [handleExecute, bind_run, hblind] at hdone
    have hnet := congrArg State.net (Outcome.done.inj hdone).1
    have hinq := congrArg (fun n => (n ()).inq) hnet
    cases hinq

/-- No request that names an unknown id is answered as unsuccessful: most end the provider. -/
theorem Forwarded.NamesUnknown.not_survived (s : State Cl) (r : Forwarded)
    (h : r.NamesUnknown lib s) : ¬ r.Survived lzo fuel lib s := by
  rintro ⟨out, s', hw, hout, -, -⟩
  cases r with
  | execute msg =>
    obtain ⟨hm, harg | -⟩ := h
    · exact (breaks_execute hm harg).not_works hw
    · obtain ⟨ret, hret⟩ := hw.executeResponse hm
      rw [hret] at hout
      cases hout
  | memput params stp data =>
    obtain ⟨f, hf⟩ : ∃ f, Breaks lzo fuel lib _ f s := breaks_memput h stp data
    exact hf.not_works hw
  | fetch params =>
    obtain ⟨f, hf⟩ : ∃ f, Breaks lzo fuel lib _ f s := breaks_fetch_unknown h
    exact hf.not_works hw

/-- A MEMPUT to the null pointer. -/
theorem not_survived_null : ¬ Forwarded.Survived literalLzo 100 silentCl
    (.initial silentCl [] fun _ => 0) (.memput ⟨0, 0, 4, 9⟩ .default [1, 2, 3, 4]) :=
  Forwarded.NamesUnknown.not_survived _ _ (IdSet.not_mem_empty _)

/-- A second fetch of an allocation, say. -/
theorem not_survived_fetch : ¬ ∀ r : Forwarded,
    r.NamesUnknown silentCl (.initial silentCl [] fun _ => 0) →
      r.Survived literalLzo 100 silentCl (.initial silentCl [] fun _ => 0) := by
  intro h
  have hunknown : ∀ id a, (State.initial silentCl [] fun _ => 0).allocations.lookup id = some a →
      a.handle ≠ (⟨5, 4, 9, .default⟩ : FetchRequest).handle := fun id _ hlook =>
    absurd (IdSet.mem_of_lookup hlook) (IdSet.not_mem_empty id)
  obtain ⟨out, s', hw, -⟩ := h (.fetch ⟨5, 4, 9, .default⟩) hunknown
  obtain ⟨f, hf⟩ : ∃ f, Breaks literalLzo 100 silentCl _ f _ := breaks_fetch_unknown hunknown
  exact hf.not_works hw

end Clara.Provider
