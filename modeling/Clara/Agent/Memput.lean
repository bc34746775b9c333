import Clara.Agent.Nesting
import Clara.Common.Drain

/-! `agent_forward_memput` when sends to the provider fail: when the consumer's connection is left
with what comes behind the stream. -/
namespace Clara.Agent

open Conc

/-- A message is received from the consumer only where its stream has one. -/
def Op.ReadsMessages (rs : List Sent) (later : List Incoming) (c : Addr) : Op → State → Prop
  | .net o, s => o.ReadsMessages rs later (.consumer c) s.net
  | _, _ => True

/-- When `agent_forward_memput` has returned, nothing of the stream is left on the consumer's
connection, and none of its data has been taken for a message. -/
def StaysInStep (fuel : ℕ) (t : Tid) (c provider : Addr) (params : MemputStreamParams)
    (rs : List Sent) (later : List Incoming) (s : State) : Prop :=
  Prog.Meets exec t (Op.ReadsMessages rs later c) (fun s => (s.net (.consumer c)).inq = later)
    (agentForwardMemput fuel c provider params) s

/-- The request and the start of the stream can be sent, and of the records of each block all but
the last. -/
structure MemputPasses (fails : List Bool) (blks : List Bytes) : Prop where
  request : fails.head? ≠ some true
  start : fails.tail.head? ≠ some true
  blocks : Passable fails.tail.tail blks

section
variable {α : Type} {t : Tid} {s : State} {c provider l : Addr} {lk lk' : Lock}
  {params : MemputStreamParams} {rs : List Sent} {later : List Incoming}

theorem along_net (p : NetProg Sd α) (s : State) :
    Prog.Along exec t (Op.ReadsMessages rs later c) (net p) s ↔
      p.Along (NetOp.ReadsMessages rs later (.consumer c)) s.net := by
  rw [net]
  induction p generalizing s with
  | ret a => exact Iff.rfl
  | op o k ih =>
    rw [Prog.lift, Prog.Along, NetProg.Along, Prog.Along, Op.ReadsMessages]
    refine and_congr_right fun _ => ?_
    have hdone : ∀ s' r, exec t (.net o) s = .done s' r ↔
        ∃ n, Net.exec o s.net = .done n r ∧ s' = s.withNet n := by
      intro s' r
      rw [exec]
      cases Net.exec o s.net with
      | done n a =>
        constructor
        · intro h
          obtain ⟨rfl, rfl⟩ := Outcome.done.inj h
          exact ⟨n, rfl, rfl⟩
        · rintro ⟨n', h, rfl⟩
          obtain ⟨rfl, rfl⟩ := Outcome.done.inj h
          rfl
      | fault f =>
        constructor
        · intro h
          cases h
        · rintro ⟨n, h, -⟩
          cases h
      | blocked =>
        constructor
        · intro h
          cases h
        · rintro ⟨n, h, -⟩
          cases h
    constructor
    · intro h n r hn
      exact (ih r (s.withNet n)).mp (h _ r ((hdone _ r).mpr ⟨n, hn, rfl⟩))
    · intro h s' r hs'
      obtain ⟨n, hn, rfl⟩ := (hdone s' r).mp hs'
      exact (ih r (s.withNet n)).mpr (h n r hn)

theorem meets_net (p : NetProg Sd α) (s : State) :
    Prog.Meets exec t (Op.ReadsMessages rs later c)
        (fun s => (s.net (.consumer c)).inq = later) (net p) s ↔
      Drains rs later (.consumer c) p s.net := by
  have hrun := @run_net t s _ p
  rw [run] at hrun
  rw [Prog.Meets, hrun, along_net, Drains, Prog.Meets]
  refine and_congr_left fun _ => ?_
  rw [Net.run]
  cases Prog.run (fun _ : Unit => Net.exec) () p s.net <;> exact Iff.rfl

/-- An operation that is not on the network receives nothing. -/
private theorem along_read {k : Kind} (a : Addr) (s : State) :
    Prog.Along exec t (Op.ReadsMessages rs later c) (read k a) s :=
  Prog.along_perform.mpr trivial

private theorem along_providerLock (s : State) :
    Prog.Along exec t (Op.ReadsMessages rs later c) (providerLock provider) s :=
  Prog.along_bind.mpr ⟨along_read .., fun _ _ _ => Prog.along_perform.mpr trivial⟩

private theorem along_providerUnlock (s : State) :
    Prog.Along exec t (Op.ReadsMessages rs later c) (providerUnlock provider) s :=
  Prog.along_bind.mpr ⟨along_read .., fun _ _ _ => Prog.along_perform.mpr trivial⟩

private theorem meets_providerUnlock (hs : s.LockAt provider l lk) (h : lk.post t = some lk') :
    Prog.Meets exec t (Op.ReadsMessages rs later c)
        (fun s => (s.net (.consumer c)).inq = later) (providerUnlock provider) s ↔
      (s.net (.consumer c)).inq = later := by
  have hrun := run_providerUnlock_post hs h
  rw [run] at hrun
  rw [Prog.Meets, hrun]
  exact and_iff_left (along_providerUnlock s)

/-- The request cannot be sent: the stream stays where it is. -/
theorem not_staysInStep_of_refused (hs : s.LockAt provider l lk) (hsound : lk.Sound)
    (hwait : lk.wait t = some lk') {fuel : ℕ}
    (hf : (s.net (.provider provider)).sendFails.head? = some true)
    (hq : (s.net (.consumer c)).inq ≠ later) (params : MemputStreamParams) :
    ¬ StaysInStep fuel t c provider params rs later s := by
  have hlock := run_providerLock_wait hs hwait
  have hpost := Lock.post_wait hsound hwait
  obtain ⟨n, r, hsend, ht⟩ :=
    s.net.tried_sendmsg (.provider provider) Msg.memputStream params.bytes
  have hsent : run t (net (claraSendmsg (.provider provider) Msg.memputStream params.bytes))
      (s.put .lock l (some lk')) = .done ((s.put .lock l (some lk')).withNet n) r := by
    rw [run_net]
    simp only [State.put_net, hsend]
  have hlocked : ((s.put .lock l (some lk')).withNet n).LockAt provider l lk' := hs.put lk'
  have hr := ht.result
  rw [if_pos hf] at hr
  subst hr
  rw [StaysInStep, agentForwardMemput, agentForwardMemputWith, Prog.meets_bind_done hlock,
    Prog.meets_bind_done hsent]
  simp only
  rw [meets_providerUnlock hlocked hpost, State.withNet_net, ht.inq]
  exact fun h => hq h.2.2

/-- The request can be sent: what happens to the stream decides. -/
theorem staysInStep_iff_drains (hs : s.LockAt provider l lk) (hsound : lk.Sound)
    (hwait : lk.wait t = some lk') {fuel : ℕ}
    (hf : (s.net (.provider provider)).sendFails.head? ≠ some true)
    (params : MemputStreamParams) :
    ∃ n : Net Sd, (n (.consumer c)).inq = (s.net (.consumer c)).inq ∧
      (n (.provider provider)).sendFails = (s.net (.provider provider)).sendFails.tail ∧
      (StaysInStep fuel t c provider params rs later s ↔
        Drains rs later (.consumer c) (streamForward (.consumer c) (.provider provider) fuel)
          n) := by
  have hlock := run_providerLock_wait hs hwait
  have hpost := Lock.post_wait hsound hwait
  obtain ⟨n, r, hsend, ht⟩ :=
    s.net.tried_sendmsg (.provider provider) Msg.memputStream params.bytes
  have hsent : run t (net (claraSendmsg (.provider provider) Msg.memputStream params.bytes))
      (s.put .lock l (some lk')) = .done ((s.put .lock l (some lk')).withNet n) r := by
    rw [run_net]
    simp only [State.put_net, hsend]
  have hlocked : ((s.put .lock l (some lk')).withNet n).LockAt provider l lk' := hs.put lk'
  have hr := ht.result
  rw [if_neg hf] at hr
  subst hr
  refine ⟨n, ht.inq _, ht.fails, ?_⟩
  rw [StaysInStep, agentForwardMemput, agentForwardMemputWith, Prog.meets_bind_done hlock,
    and_iff_right (along_providerLock s), Prog.meets_bind_done hsent,
    and_iff_right ((along_net _ _).mpr (quiet_claraSendmsg _ _).along)]
  simp only
  rw [Prog.meets_bind_last fun s' a hr => meets_providerUnlock
    (hlocked.of_turns hr (turns_net _)) hpost, meets_net, State.withNet_net, streamForward]

end

/-- A MEMPUT of which sending fails leaves the consumer in step with the agent exactly if the
request, the start of the stream and all records of each block but its last one can be sent. -/
theorem staysInStep_iff {t : Tid} {s : State} {c provider l : Addr} {lk lk' : Lock}
    (hs : s.LockAt provider l lk) (hsound : lk.Sound) (hwait : lk.wait t = some lk')
    {stp : StreamOptions} {blks : List Bytes} (hblks : ∀ b ∈ blks, b.length < 2 ^ 64)
    {later : List Incoming} (hq : (s.net (.consumer c)).inq =
      Net.incoming (streamOf stp blks) ++ later)
    {fuel : ℕ} (hfuel : (streamOf stp blks).length ≤ fuel) (params : MemputStreamParams) :
    StaysInStep fuel t c provider params (streamOf stp blks) later s ↔
      MemputPasses (s.net (.provider provider)).sendFails blks := by
  have hne : Sd.consumer c ≠ .provider provider := nofun
  by_cases hf : (s.net (.provider provider)).sendFails.head? = some true
  · have hrest : (s.net (.consumer c)).inq ≠ later := by
      intro h
      have hlength := congrArg List.length (hq.symm.trans h)
      simp only [streamOf, Net.incoming, List.length_append, List.length_map,
        List.length_cons] at hlength
      omega
    exact iff_of_false (not_staysInStep_of_refused hs hsound hwait hf hrest params)
      fun h => h.request hf
  · obtain ⟨n, hin, hfails, hiff⟩ := staysInStep_iff_drains hs hsound hwait hf params
    rw [hiff, drains_streamForward_iff hne hblks (hin.trans hq) hfuel, hfails]
    constructor
    · rintro ⟨hstart, hblocks⟩
      exact ⟨hf, hstart, hblocks⟩
    · intro h
      exact ⟨h.start, h.blocks⟩

/-- The small agent when a consumer has sent two bytes in one block and then something else, and
sending to the provider goes as `fails` says. -/
def State.midStream (fails : List Bool) : State :=
  (State.small someIds).withNet fun
    | .consumer _ => ⟨Net.incoming (streamOf .default [[1, 2]]) ++ [.failure], [], []⟩
    | .provider _ => ⟨[], [], fails⟩
    | .listener => .fresh

private theorem midStream_lockAt (fails : List Bool) :
    (State.midStream fails).LockAt 1 2 .free := ⟨⟨_, rfl, rfl⟩, rfl⟩

private theorem blockData_two : (blockData [1, 2]).length = 1 := by
  rw [blockData_of_length_le (by decide) (by unfold blocksize; decide)]
  rfl

/-- The data of the only block cannot be sent. -/
theorem staysInStep_midStream :
    StaysInStep 10 (.consumer 3) 3 1 ⟨5, 0, 2, 9⟩ (streamOf .default [[1, 2]]) [.failure]
      (.midStream [false, false, false, true]) := by
  have hfuel : (streamOf .default [[1, 2]]).length ≤ 10 := by
    simp [streamOf, blockRecords, blockData_two]
  refine (staysInStep_iff (midStream_lockAt _) Lock.sound_free rfl (by decide) rfl hfuel
    ⟨5, 0, 2, 9⟩).mpr ⟨by decide, by decide, ?_, trivial⟩
  intro i hi
  obtain rfl : i = 0 := by
    rw [blockData_two] at hi
    omega
  show some false ≠ some true
  decide

/-- The header of the block cannot be sent, and its two bytes are taken for a message. -/
theorem not_staysInStep_midStream :
    ¬ StaysInStep 10 (.consumer 3) 3 1 ⟨5, 0, 2, 9⟩ (streamOf .default [[1, 2]]) [.failure]
      (.midStream [false, false, true]) := by
  have hne : Sd.consumer 3 ≠ .provider 1 := by decide
  have hfuel : (streamOf .default [[1, 2]]).length ≤ 10 := by
    simp [streamOf, blockRecords, blockData_two]
  intro h
  obtain ⟨n, hin, hfails, hiff⟩ := staysInStep_iff_drains (midStream_lockAt [false, false, true])
    Lock.sound_free rfl (by decide) ⟨5, 0, 2, 9⟩
  have hdrains := hiff.mp h
  rw [drains_streamForward_iff hne (by decide) (hin.trans rfl) hfuel, hfails] at hdrains
  obtain ⟨-, hs, -⟩ := hdrains
  exact hs 0 (by rw [blockData_two]; exact Nat.one_pos) rfl

end Clara.Agent
