import Clara.Agent.Frame
import Clara.Agent.ObjectSpec
import Clara.Common.Astray

/-! The lock of a provider across the functions that converse with it: what they turn it into by
the time they return, whatever becomes of the messages. -/
namespace Clara.Agent

open Conc

variable {α β : Type} {t : Tid} {s s' : State} {provider l : Addr} {lk lk' lk'' : Lock}

/-- The lock of the provider is at `l`, in the state `lk`. -/
def State.LockAt (s : State) (provider l : Addr) (lk : Lock) : Prop :=
  (∃ p, s.heap .provider provider = some p ∧ p.lock = l) ∧ s.heap .lock l = some lk

/-- Whenever the program returns, it has turned the lock from `lk` into `lk'`. -/
def Turns (t : Tid) (provider l : Addr) (lk : Lock) (p : AProg α) (lk' : Lock) : Prop :=
  ∀ s s' x, s.LockAt provider l lk → run t p s = .done s' x → s'.LockAt provider l lk'

/-- Whenever the program returns, the lock at `l` is as it was. -/
def Restores (t : Tid) (l : Addr) (p : AProg α) (s : State) : Prop :=
  ∀ s' x, run t p s = .done s' x → s'.heap .lock l = s.heap .lock l

/-- The program returns with the lock at `l` as it was: nobody's nesting depth has changed. Until
then it may have to wait, for the lock or for a message. -/
def LockNeutral (t : Tid) (l : Addr) (p : AProg α) (s : State) : Prop :=
  match run t p s with
  | .done s' _ => s'.heap .lock l = s.heap .lock l
  | .fault _ => False
  | .blocked => True

theorem lockNeutral_iff {p : AProg α} :
    LockNeutral t l p s ↔ Restores t l p s ∧ ¬ (run t p s).Aborts := by
  unfold LockNeutral Restores
  cases run t p s with
  | done s' x =>
    refine ⟨fun h => ⟨fun s₁ x₁ hrun => ?_, id⟩, fun h => h.1 s' x rfl⟩
    obtain ⟨rfl, -⟩ := Outcome.done.inj hrun
    exact h
  | fault f => exact ⟨False.elim, fun h => h.2 trivial⟩
  | blocked => exact ⟨fun _ => ⟨nofun, id⟩, fun _ => trivial⟩

theorem State.LockAt.of_turns {p : AProg α} {x : α} (hs : s.LockAt provider l lk)
    (hr : run t p s = .done s' x) (h : Turns t provider l lk p lk') :
    s'.LockAt provider l lk' := h s s' x hs hr

theorem Turns.lockNeutral_iff {p : AProg α} (h : Turns t provider l lk p lk)
    (hs : s.LockAt provider l lk) : LockNeutral t l p s ↔ ¬ (run t p s).Aborts :=
  Agent.lockNeutral_iff.trans (and_iff_right fun s' x hr => (h s s' x hs hr).2.trans hs.2.symm)

theorem Turns.bind {p : AProg α} {f : α → AProg β} (hp : Turns t provider l lk p lk')
    (hf : ∀ a, Turns t provider l lk' (f a) lk'') : Turns t provider l lk (p >>= f) lk'' := by
  intro s s' x hs hr
  rw [run, Prog.run_bind] at hr
  obtain ⟨s₁, a, h₁, h₂⟩ := Outcome.bind_eq_done hr
  exact hf a s₁ s' x (hp s s₁ a hs h₁) h₂

theorem turns_pure (a : α) : Turns t provider l lk (pure a) lk := by
  intro s s' x hs hr
  obtain ⟨rfl, -⟩ := Outcome.done.inj hr
  exact hs

theorem turns_fail (f : Fault) : Turns t provider l lk (fail f : AProg α) lk' := nofun

theorem turns_ite {c : Prop} [Decidable c] {p q : AProg α} (hp : Turns t provider l lk p lk')
    (hq : Turns t provider l lk q lk') : Turns t provider l lk (if c then p else q) lk' := by
  split_ifs
  · exact hp
  · exact hq

/-- Operations on other parts of the state leave the lock alone. -/
theorem passes_turns (t : Tid) (provider l : Addr) (lk : Lock) {S : List Area}
    (hlock : .lock ∉ S) (hprovider : .provider ∉ S) :
    Passes S fun _ p => Turns t provider l lk p lk where
  pure := turns_pure
  bind := Turns.bind
  op o ho := by
    intro s s' x hs hr
    rw [perform, run, Prog.run_perform] at hr
    have hc := change_of_done hr
    obtain ⟨⟨p, hp, hl⟩, hlk⟩ := hs
    constructor
    · rcases hc.heap (k := .provider) (ne_of_mem_of_not_mem ho hprovider) provider with
        heq | ⟨r, v, hr, hr', -⟩
      · exact ⟨p, heq.trans hp, hl⟩
      · obtain rfl := Option.some.inj (hp.symm.trans hr)
        exact ⟨_, hr', hl⟩
    · rcases hc.heap (k := .lock) (ne_of_mem_of_not_mem ho hlock) l with heq | ⟨r, v, -⟩
      · exact heq.trans hlk
      · cases v

theorem run_providerLock_wait (hs : s.LockAt provider l lk) (h : lk.wait t = some lk') :
    run t (providerLock provider) s = .done (s.put .lock l (some lk')) () := by
  obtain ⟨⟨p, hp, rfl⟩, hlk⟩ := hs
  rw [providerLock, run_bind, run_read hp, Outcome.bind_done, lockWait, perform, run,
    Prog.run_perform, exec, hlk]
  simp only [h]

theorem run_providerLock_blocked (hs : s.LockAt provider l lk) (h : lk.wait t = none) :
    run t (providerLock provider) s = .blocked := by
  obtain ⟨⟨p, hp, rfl⟩, hlk⟩ := hs
  rw [providerLock, run_bind, run_read hp, Outcome.bind_done, lockWait, perform, run,
    Prog.run_perform, exec, hlk]
  simp only [h]

theorem State.LockAt.put (hs : s.LockAt provider l lk) (lk' : Lock) :
    (s.put .lock l (some lk')).LockAt provider l lk' := by
  obtain ⟨⟨p, hp, hl⟩, -⟩ := hs
  exact ⟨⟨p, (congrFun (s.put_heap_kind l _ (by decide)) provider).trans hp, hl⟩,
    s.put_heap_self l _⟩

theorem turns_providerLock (h : lk.wait t = some lk') :
    Turns t provider l lk (providerLock provider) lk' := by
  intro s s' x hs hr
  rw [run_providerLock_wait hs h] at hr
  obtain ⟨rfl, -⟩ := Outcome.done.inj hr
  exact hs.put lk'

theorem run_providerUnlock_post (hs : s.LockAt provider l lk) (h : lk.post t = some lk') :
    run t (providerUnlock provider) s = .done (s.put .lock l (some lk')) () := by
  obtain ⟨⟨p, hp, rfl⟩, hlk⟩ := hs
  rw [providerUnlock, run_bind, run_read hp, Outcome.bind_done, lockPost, perform, run,
    Prog.run_perform, exec, hlk]
  simp only [h]

theorem turns_providerUnlock (h : lk.post t = some lk') :
    Turns t provider l lk (providerUnlock provider) lk' := by
  intro s s' x hs hr
  rw [run_providerUnlock_post hs h] at hr
  obtain ⟨rfl, -⟩ := Outcome.done.inj hr
  exact hs.put lk'

/-- What follows `provider_lock` only has to take back the one level of nesting. -/
theorem turns_locked (hk : lk.Sound) {f : Unit → AProg α}
    (h : ∀ lk', lk'.post t = some lk → Turns t provider l lk' (f ()) lk) :
    Turns t provider l lk (providerLock provider >>= f) lk := by
  cases hw : lk.wait t with
  | none =>
    intro s s' x hs hr
    rw [run_bind, run_providerLock_blocked hs hw] at hr
    cases hr
  | some lk' => exact (turns_providerLock hw).bind fun _ => h lk' (Lock.post_wait hk hw)

/-- Programs on the network do not know about locks. -/
theorem turns_net (p : NetProg Sd α) : Turns t provider l lk (net p) lk := by
  have hon : p.On fun _ => True := Prog.all_of_forall (fun o => by cases o <;> trivial) p
  have hS : Area.lock ∉ [Area.look, .wire, .answer] := by decide
  refine passes_net (passes_turns t provider l lk hS (by decide)) hon (fun sd _ => ?_) (by decide)
  cases sd with
  | provider p => exact (by decide : Area.wire ∈ [Area.look, .wire, .answer])
  | consumer c => exact (by decide : Area.answer ∈ [Area.look, .wire, .answer])
  | listener => exact (by decide : Area.answer ∈ [Area.look, .wire, .answer])

def State.GoesOut (s : State) (provider : Addr) : Prop :=
  (s.net (.provider provider)).sendFails.head? ≠ some true

theorem State.LockAt.withNet (hs : s.LockAt provider l lk) (n : Net Sd) :
    (s.withNet n).LockAt provider l lk := hs

theorem aborts_net {p : NetProg Sd α} : (run t (net p) s).Aborts ↔ (Net.run p s.net).Aborts := by
  rw [run_net]
  cases Net.run p s.net <;> exact Iff.rfl

/-- A send answers, and what it does to the connections is known. -/
theorem run_claraSendmsg_tried (s : State) (sd : Sd) (type : MessageType) (msg : Bytes) :
    ∃ n r, run t (net (claraSendmsg sd type msg)) s = .done (s.withNet n) r ∧
      Net.Tried sd msg.length s.net n r := by
  obtain ⟨n, r, hsend, ht⟩ := s.net.tried_sendmsg sd type msg
  exact ⟨n, r, by rw [run_net, hsend], ht⟩

/-- The lock can be given back whatever a conversation has come to. -/
theorem aborts_unlocking (hs : s.LockAt provider l lk') (hp : lk'.post t = some lk)
    (p : NetProg Sd α) : (run t (net p >>= fun _ => providerUnlock provider) s).Aborts ↔
      (Net.run p s.net).Aborts := by
  rw [run_bind, run_net]
  cases Net.run p s.net with
  | done n a =>
    simp only [Outcome.bind_done, run_providerUnlock_post (hs.withNet n) hp]
    exact iff_of_false id id
  | fault f => exact Iff.rfl
  | blocked => exact Iff.rfl

/-- `agent_forward_fetch` with what the structures on the stacks held before. A receive that fails
leaves the response there, one that is too short leaves the rest, and it is sent on all the same. -/
def agentForwardFetchOver (frp stp : Bytes) (fuel : ℕ) (consumer provider : Addr)
    (params : FetchRequest) : AProg Unit :=
  agentForwardFetchWith (fun r => some (fetchResponseOver r)) (fun b => some (Bytes.over b stp))
    fuel consumer provider params
where
  fetchResponseOver : Received → MessageType × Bytes
    | .failed => (Msg.fetchResponse, frp)
    | .message type msg => (type, Bytes.over msg frp)
    | .notification msg => (Msg.fetchResponse, Bytes.over msg frp)

def agentForwardMemputOver (stp : Bytes) (fuel : ℕ) (consumer provider : Addr)
    (params : MemputStreamParams) : AProg Unit :=
  agentForwardMemputWith (fun b => some (Bytes.over b stp)) fuel consumer provider params

theorem turns_agentForwardFetchOver (hk : lk.Sound) (frp stp : Bytes) (fuel : ℕ) (consumer : Addr)
    (params : FetchRequest) :
    Turns t provider l lk (agentForwardFetchOver frp stp fuel consumer provider params) lk := by
  refine turns_locked hk fun lk' hp => (turns_net _).bind fun _ => turns_ite ?_ ?_
  · exact (turns_net _).bind fun _ => (turns_net _).bind fun _ => (turns_net _).bind fun _ =>
      turns_providerUnlock hp
  · exact turns_providerUnlock hp

theorem turns_agentForwardMemputOver (hk : lk.Sound) (stp : Bytes) (fuel : ℕ) (consumer : Addr)
    (params : MemputStreamParams) :
    Turns t provider l lk (agentForwardMemputOver stp fuel consumer provider params) lk := by
  refine turns_locked hk fun lk' hp => (turns_net _).bind fun r => ?_
  cases r with
  | none => exact turns_providerUnlock hp
  | some n => exact (turns_net _).bind fun _ => turns_providerUnlock hp

def State.Responds (s : State) (provider consumer : Addr) : Prop :=
  ∀ i later, (s.net (.provider provider)).inq = i :: later → ¬ i.Kills 8 ∧
    ¬ StartsAstray (s.net (.consumer consumer)).sendFails.tail (i.left 10 ++ later)

/-- The stream that waits on the consumer's connection can be passed on behind the request. -/
def State.Uploads (s : State) (provider consumer : Addr) : Prop :=
  ¬ StartsAstray (s.net (.provider provider)).sendFails.tail (s.net (.consumer consumer)).inq

theorem agentForwardMemputOver_lockNeutral_iff (hk : lk.Sound) (hs : s.LockAt provider l lk)
    (stp : Bytes) (consumer : Addr) (params : MemputStreamParams) :
    (∀ fuel, LockNeutral t l (agentForwardMemputOver stp fuel consumer provider params) s) ↔
      lk.wait t = none ∨ ¬ s.GoesOut provider ∨ s.Uploads provider consumer := by
  simp only [(turns_agentForwardMemputOver hk stp _ consumer params).lockNeutral_iff hs]
  cases hw : lk.wait t with
  | none =>
    refine iff_of_true (fun fuel => ?_) (.inl rfl)
    rw [agentForwardMemputOver, agentForwardMemputWith, run_bind, run_providerLock_blocked hs hw]
    exact id
  | some lk' =>
    have hpost := Lock.post_wait hk hw
    obtain ⟨n, r, hsend, ht⟩ := run_claraSendmsg_tried (t := t) (s.put .lock l (some lk'))
      (.provider provider) Msg.memputStream params.bytes
    have hlocked := (hs.put lk').withNet n
    have hr := ht.result
    have hrun : ∀ fuel, run t (agentForwardMemputOver stp fuel consumer provider params) s =
        run t (r.elim (providerUnlock provider) fun _ =>
            net (streamForwardWith (fun b => some (Bytes.over b stp))
              (.consumer consumer) (.provider provider) fuel) >>= fun _ => providerUnlock provider)
          ((s.put .lock l (some lk')).withNet n) := by
      intro fuel
      rw [agentForwardMemputOver, agentForwardMemputWith, run_bind, run_providerLock_wait hs hw,
        Outcome.bind_done, run_bind, hsend]
      cases r <;> rfl
    simp only [hrun]
    rw [or_iff_right (Option.some_ne_none lk')]
    split_ifs at hr with hf
    · subst hr
      refine iff_of_true (fun _ => ?_) (.inl fun hout => hout hf)
      simp only [Option.elim_none, run_providerUnlock_post hlocked hpost]
      exact id
    · subst hr
      have haborts : (∃ fuel, (Net.run (streamForwardOver stp (.consumer consumer)
          (.provider provider) fuel) n).Aborts) ↔
          StartsAstray (n (.provider provider)).sendFails (n (.consumer consumer)).inq :=
        aborts_streamForwardOver_iff (by simp) stp
      rw [ht.inq, ht.fails] at haborts
      have hout : s.GoesOut provider := hf
      rw [or_iff_right (not_not_intro hout)]
      simp only [Option.elim_some, aborts_unlocking hlocked hpost]
      exact not_exists.symm.trans (not_congr haborts)

theorem agentForwardFetchOver_lockNeutral_iff (hk : lk.Sound) (hs : s.LockAt provider l lk)
    (frp stp : Bytes) (consumer : Addr) (params : FetchRequest) :
    (∀ fuel, LockNeutral t l (agentForwardFetchOver frp stp fuel consumer provider params) s) ↔
      lk.wait t = none ∨ params.size = 0 ∨ s.Responds provider consumer := by
  simp only [(turns_agentForwardFetchOver hk frp stp _ consumer params).lockNeutral_iff hs]
  cases hw : lk.wait t with
  | none =>
    refine iff_of_true (fun fuel => ?_) (.inl rfl)
    rw [agentForwardFetchOver, agentForwardFetchWith, run_bind, run_providerLock_blocked hs hw]
    exact id
  | some lk' =>
    have hpost := Lock.post_wait hk hw
    obtain ⟨n, r, hsend, ht⟩ := run_claraSendmsg_tried (t := t) (s.put .lock l (some lk'))
      (.provider provider) Msg.fetchRequest params.bytes
    have hlocked := (hs.put lk').withNet n
    have hrun : ∀ fuel, run t (agentForwardFetchOver frp stp fuel consumer provider params) s =
        run t (if 0 < params.size then net (claraRecvmsg (.provider provider) 8 >>= fun r =>
            claraSendmsg (.consumer consumer) (agentForwardFetchOver.fetchResponseOver frp r).1
              (agentForwardFetchOver.fetchResponseOver frp r).2 >>= fun _ =>
                streamForwardOver stp (.provider provider) (.consumer consumer) fuel) >>=
              fun _ => providerUnlock provider
          else providerUnlock provider) ((s.put .lock l (some lk')).withNet n) := by
      intro fuel
      rw [agentForwardFetchOver, agentForwardFetchWith, run_bind, run_providerLock_wait hs hw,
        Outcome.bind_done, run_bind, hsend, Outcome.bind_done]
      split_ifs with hsize
      · simp only [net_bind, Prog.bind_assoc']
        rfl
      · rfl
    simp only [hrun]
    rw [or_iff_right (Option.some_ne_none lk')]
    by_cases hsize : params.size = 0
    · have hpos : ¬ 0 < params.size := by simp [hsize]
      refine iff_of_true (fun fuel => ?_) (.inl hsize)
      rw [if_neg hpos, run_providerUnlock_post hlocked hpost]
      exact id
    · have hpos : 0 < params.size := UInt64.pos_iff_ne_zero.mpr hsize
      rw [or_iff_right hsize]
      simp only [if_pos hpos, aborts_unlocking hlocked hpost]
      have hne : Sd.provider provider ≠ .consumer consumer := by simp
      have haborts := @aborts_passingOn_iff _ _ n _ _ hne stp
        (agentForwardFetchOver.fetchResponseOver frp)
      rw [ht.inq, ht.others _ (by simp)] at haborts
      refine not_exists.symm.trans ((not_congr haborts).trans ?_)
      simp only [State.Responds, not_exists, not_and, not_or]
      exact Iff.rfl

section
variable {type : MessageType} {msg : Bytes} {f : Option ℕ → AProg α} {a : α} {x : α}

theorem run_toProvider_sent (ha : s.GoesOut provider) (type : MessageType) (msg : Bytes) :
    ∃ n, run t (net (claraSendmsg (.provider provider) type msg)) s =
      .done (s.withNet n) (some msg.length) := by
  rw [run_net, Net.run_claraSendmsg_sent ha]
  exact ⟨_, rfl⟩

theorem run_toProvider_failed (hn : ¬ s.GoesOut provider) (type : MessageType) (msg : Bytes) :
    ∃ n, run t (net (claraSendmsg (.provider provider) type msg)) s =
      .done (s.withNet n) none := by
  rw [run_net, Net.run_claraSendmsg_failed (not_not.mp hn)]
  exact ⟨_, rfl⟩

/-- A call whose message goes out and whose second half unlocks the provider. -/
theorem call_accepted (hk : lk.Sound) (hs : s.LockAt provider l lk) (ha : s.GoesOut provider)
    (hsome : ∀ n lk', lk'.post t = some lk → Turns t provider l lk' (f (some n)) lk)
    (hr : run t (providerLock provider >>= fun _ =>
      net (claraSendmsg (.provider provider) type msg) >>= f) s = .done s' x) :
    s'.LockAt provider l lk := by
  rw [run_bind] at hr
  cases hw : lk.wait t with
  | none =>
    rw [run_providerLock_blocked hs hw] at hr
    cases hr
  | some lk' =>
    have ha' : (s.put .lock l (some lk')).GoesOut provider := ha
    obtain ⟨n, hn⟩ := run_toProvider_sent (t := t) ha' type msg
    rw [run_providerLock_wait hs hw, Outcome.bind_done, run_bind, hn] at hr
    exact hsome _ lk' (Lock.post_wait hk hw) _ s' x ((hs.put lk').withNet n) hr

/-- A call whose message does not go out returns with the lock taken. -/
theorem call_refused (hs : s.LockAt provider l lk) (hw : lk.wait t = some lk')
    (hn : ¬ s.GoesOut provider) (type : MessageType) (msg : Bytes) (hnone : f none = pure a) :
    ∃ s', run t (providerLock provider >>= fun _ =>
        net (claraSendmsg (.provider provider) type msg) >>= f) s = .done s' a ∧
      s'.LockAt provider l lk' := by
  have hn' : ¬ (s.put .lock l (some lk')).GoesOut provider := hn
  obtain ⟨n, hsend⟩ := run_toProvider_failed (t := t) hn' type msg
  refine ⟨_, ?_, (hs.put lk').withNet n⟩
  rw [run_bind, run_providerLock_wait hs hw, Outcome.bind_done, run_bind, hsend,
    Outcome.bind_done, hnone]
  rfl

/-- A call takes back what it took exactly if it waits or its message goes out. -/
theorem call_restores_iff (hk : lk.Sound) (hs : s.LockAt provider l lk)
    (hnone : f none = pure a)
    (hsome : ∀ n lk', lk'.post t = some lk → Turns t provider l lk' (f (some n)) lk) :
    Restores t l (providerLock provider >>= fun _ =>
      net (claraSendmsg (.provider provider) type msg) >>= f) s ↔
        lk.wait t = none ∨ s.GoesOut provider := by
  constructor
  · intro h
    by_contra hnot
    rw [not_or] at hnot
    obtain ⟨lk', hw⟩ := Option.ne_none_iff_exists'.mp hnot.1
    obtain ⟨s', hr, hs'⟩ := call_refused hs hw hnot.2 type msg hnone
    have hsame := (hs'.2.symm.trans (h s' a hr)).trans hs.2
    exact Lock.wait_ne hw (Option.some.inj hsame)
  · rintro (hw | ha)
    · intro s' x hr
      rw [run_bind, run_providerLock_blocked hs hw] at hr
      cases hr
    · intro s' x hr
      exact (call_accepted hk hs ha hsome hr).2.trans hs.2.symm

end

/-- The response that waits, if any, has eight bytes, or receiving it fails. -/
def State.Answers (s : State) (provider : Addr) : Prop :=
  ∀ i later, (s.net (.provider provider)).inq = i :: later → i.Answers

def remoteResponse (provider : Addr) (a : Assertion) : AProg (Option Arg) := do
  let response ← net (claraRecvmsg (.provider provider) 8)
  providerUnlock provider
  match response.stored with
  | none => pure none
  | some b =>
    assert (b.length == 8) a
    pure (some (b.wordAt 0))

private theorem turns_response (hp : lk'.post t = some lk) (a : Assertion) :
    Turns t provider l lk' (remoteResponse provider a) lk := by
  refine (turns_net _).bind fun r => (turns_providerUnlock hp).bind fun _ => ?_
  cases r.stored with
  | none => exact turns_pure _
  | some b =>
    refine Turns.bind ?_ fun _ => turns_pure _
    cases b.length == 8 with
    | true => exact turns_pure _
    | false => exact turns_fail _

private theorem run_response_nil (hq : (s.net (.provider provider)).inq = []) (a : Assertion) :
    run t (remoteResponse provider a) s = .blocked := by
  rw [remoteResponse, run_bind, run_net, Net.run_claraRecvmsg_nil hq]
  rfl

private theorem run_response (hs : s.LockAt provider l lk') (hp : lk'.post t = some lk)
    (a : Assertion) {i : Incoming} {later : List Incoming}
    (hq : (s.net (.provider provider)).inq = i :: later) (hk : ¬ i.Kills 8) :
    run t (remoteResponse provider a) s =
      match i.stored 8 with
      | none => .done ((s.withNet (s.net.withInq (.provider provider) (i.left 10 ++ later))).put
          .lock l (some lk)) none
      | some b => if b.length = 8 then
          .done ((s.withNet (s.net.withInq (.provider provider) (i.left 10 ++ later))).put
            .lock l (some lk)) (some (b.wordAt 0))
        else .fault (.assertion a) := by
  obtain ⟨r, hrecv, hr⟩ := Net.run_claraRecvmsg_cons hq hk
  rw [remoteResponse, run_bind, run_net, hrecv]
  simp only [Outcome.bind_done]
  rw [run_bind, run_providerUnlock_post (hs.withNet _) hp, Outcome.bind_done, hr]
  cases i.stored 8 with
  | none => rfl
  | some b =>
    simp only [run_bind, run_assert, beq_iff_eq]
    split_ifs <;> rfl

private theorem aborts_response (hs : s.LockAt provider l lk') (hp : lk'.post t = some lk)
    (a : Assertion) :
    (run t (remoteResponse provider a) s).Aborts ↔ ¬ s.Answers provider := by
  cases hq : (s.net (.provider provider)).inq with
  | nil =>
    refine iff_of_false ?_ fun h => h fun i later heq => ?_
    · rw [run_response_nil hq]
      exact id
    · rw [hq] at heq
      cases heq
  | cons i later =>
    have hanswers : s.Answers provider ↔ i.Answers := by
      refine ⟨fun h => h i later hq, fun h i' later' heq => ?_⟩
      obtain ⟨rfl, -⟩ := List.cons.inj (hq.symm.trans heq)
      exact h
    rw [hanswers, Incoming.Answers]
    by_cases hk : i.Kills 8
    · refine iff_of_true ?_ fun h => h.1 hk
      rw [remoteResponse, run_bind]
      exact (aborts_net.mpr ((Net.aborts_claraRecvmsg hq).mpr hk)).bind _
    · rw [run_response hs hp a hq hk]
      cases i.stored 8 with
      | none =>
      refine iff_of_false id fun h => h ⟨hk, fun b' hb' => ?_⟩
      cases hb'
      | some b =>
        simp only
        split_ifs with hlen
        · refine iff_of_false id fun h => h ⟨hk, fun b' hb' => ?_⟩
          obtain rfl := Option.some.inj hb'
          exact hlen
        · exact iff_of_true trivial fun h => hlen (h.2 b rfl)

private theorem call_lockNeutral_iff {type : MessageType} {msg : Bytes} {f : Option ℕ → AProg α}
    {x : α} (hk : lk.Sound) (hs : s.LockAt provider l lk) (hnone : f none = pure x)
    (hsome : ∀ n lk', lk'.post t = some lk → Turns t provider l lk' (f (some n)) lk)
    (haborts : ∀ n s' lk', s'.LockAt provider l lk' → lk'.post t = some lk →
      ((run t (f (some n)) s').Aborts ↔ ¬ s'.Answers provider)) :
    LockNeutral t l (providerLock provider >>= fun _ =>
      net (claraSendmsg (.provider provider) type msg) >>= f) s ↔
        lk.wait t = none ∨ s.GoesOut provider ∧ s.Answers provider := by
  rw [lockNeutral_iff, call_restores_iff hk hs hnone hsome]
  cases hw : lk.wait t with
  | none =>
    refine iff_of_true ⟨.inl rfl, ?_⟩ (.inl rfl)
    rw [run_bind, run_providerLock_blocked hs hw]
    exact id
  | some lk' =>
    rw [or_iff_right (Option.some_ne_none lk'), or_iff_right (Option.some_ne_none lk')]
    refine and_congr_right fun hout => ?_
    obtain ⟨n, r, hsend, ht⟩ := run_claraSendmsg_tried (t := t) (s.put .lock l (some lk'))
      (.provider provider) type msg
    obtain rfl : r = some msg.length := ht.result.trans (if_neg hout)
    rw [run_bind, run_providerLock_wait hs hw, Outcome.bind_done, run_bind, hsend,
      Outcome.bind_done, haborts _ _ lk' ((hs.put lk').withNet n) (Lock.post_wait hk hw), not_not]
    unfold State.Answers
    rw [State.withNet_net, ht.inq]
    exact Iff.rfl

theorem agentRemoteAllocate_lockNeutral_iff (hk : lk.Sound) (hs : s.LockAt provider l lk)
    (params : AllocateRequest) (extra : Bytes) :
    LockNeutral t l (agentRemoteAllocate provider params extra) s ↔
      lk.wait t = none ∨ s.GoesOut provider ∧ s.Answers provider :=
  call_lockNeutral_iff hk hs rfl (fun _ _ hp => turns_response hp .remoteAllocateSize)
    fun _ _ _ hs' hp => aborts_response hs' hp .remoteAllocateSize

private theorem run_agentRemoteAllocate_sent (hs : s.LockAt provider l lk)
    (hw : lk.wait t = some lk') (ha : s.GoesOut provider) (params : AllocateRequest)
    (extra : Bytes) : ∃ s', s'.LockAt provider l lk' ∧
      (s'.net (.provider provider)).inq = (s.net (.provider provider)).inq ∧
      (s'.net (.provider provider)).sendFails = (s.net (.provider provider)).sendFails.tail ∧
      run t (agentRemoteAllocate provider params extra) s =
        run t (remoteResponse provider .remoteAllocateSize) s' := by
  obtain ⟨n, r, hsend, ht⟩ := run_claraSendmsg_tried (t := t) (s.put .lock l (some lk'))
    (.provider provider) Msg.allocateRequest (params.bytes ++ extra)
  obtain rfl := ht.result.trans (if_neg ha)
  refine ⟨_, (hs.put lk').withNet n, ht.inq _, ht.fails, ?_⟩
  rw [agentRemoteAllocate, run_bind, run_providerLock_wait hs hw, Outcome.bind_done, run_bind,
    hsend, Outcome.bind_done]
  rfl

theorem agentRemoteAllocate_refused (hs : s.LockAt provider l lk) (hw : lk.wait t = some lk')
    (hn : ¬ s.GoesOut provider) (params : AllocateRequest) (extra : Bytes) :
    ∃ s', run t (agentRemoteAllocate provider params extra) s = .done s' none ∧
      s'.LockAt provider l lk' := call_refused hs hw hn _ _ rfl

theorem agentRemoteExecute_lockNeutral_iff (hk : lk.Sound) (hs : s.LockAt provider l lk)
    (params : ExecuteRequest) :
    LockNeutral t l (agentRemoteExecute (some provider) params) s ↔
      lk.wait t = none ∨ s.GoesOut provider ∧ s.Answers provider :=
  call_lockNeutral_iff hk hs rfl (fun _ _ hp => turns_response hp .remoteExecuteSize)
    fun _ _ _ hs' hp => aborts_response hs' hp .remoteExecuteSize

/-- `id_create` returns: the pool can be used and the first draw is not in it. -/
def State.Reserves (t : Tid) (s : State) : Prop :=
  Usable t .idPool s ∧ (s.candidates s.draws).val ∉ s.sets .idPool

theorem idCreate_done {id : GlobalId} (h : run t idCreate s = .done s' id) :
    s.Reserves t ∧ s' = s.withId := by
  by_cases hu : Usable t .idPool s
  · by_cases hk : (s.candidates s.draws).val ∈ s.sets .idPool
    · rw [run_idCreate_collision hu hk] at h
      cases h
    · rw [run_idCreate hu hk] at h
      obtain ⟨rfl, -⟩ := Outcome.done.inj h
      exact ⟨⟨hu, hk⟩, rfl⟩
  · rw [idCreate, idCreateLoop, run_bind, run_rand, Outcome.bind_done, run_bind] at h
    obtain ⟨s₁, b, hi, -⟩ := Outcome.bind_eq_done h
    rw [setInsert, perform, run, Prog.run_perform, exec] at hi
    split_ifs at hi with hadm
    obtain ⟨v, hv, -⟩ := ofSet_done hi
    rw [IdSet.setInsert] at hv
    split_ifs at hv with hd
    exact absurd ⟨by simpa using hd, hadm⟩ hu

/-- Another thread goes through the pool. -/
theorem run_idCreate_blocked (h : (s.setLock .idPool).admits t = false) :
    run t idCreate s = .blocked := by
  rw [idCreate, idCreateLoop, run_bind, run_rand, Outcome.bind_done, run_bind, setInsert, perform,
    run, Prog.run_perform, exec]
  simp only at h ⊢
  rw [h]
  rfl

theorem aborts_idCreate (h : (s.setLock .idPool).admits t = true) (hid : ¬ s.Reserves t) :
    (run t idCreate s).Aborts := by
  cases hd : (s.sets .idPool).damaged with
  | true =>
    rw [idCreate, idCreateLoop, run_bind, run_rand, Outcome.bind_done, run_bind]
    refine Outcome.Aborts.bind ?_ _
    rw [run_setInsert_damaged (s := { s with draws := s.draws + 1 }) h hd]
    trivial
  | false =>
    have hu : Usable t .idPool s := ⟨hd, h⟩
    rw [run_idCreate_collision hu (not_not.mp fun hk => hid ⟨hu, hk⟩)]
    trivial

theorem State.LockAt.withId (hs : s.LockAt provider l lk) : s.withId.LockAt provider l lk := hs

section
variable {lzo : Lzo} {fuel : ℕ} {device : Addr} {dv : Device}

private theorem run_queryAvailable (lzo : Lzo) (fuel : ℕ) (provider : Addr)
    (hd : s.heap .device device = some dv) :
    ∃ f, run t (queryAvailable lzo fuel device provider) s = (run t idCreate s).bind f := by
  rw [queryAvailable]
  simp only
  rw [run_bind, run_read hd, Outcome.bind_done, run_bind]
  exact ⟨_, rfl⟩

theorem queryAvailable_reserves {x : Bytes}
    (hr : run t (queryAvailable lzo fuel device provider) s = .done s' x) : s.Reserves t := by
  obtain ⟨s₁, dv, hread, hid⟩ := run_bind_done hr
  obtain ⟨rfl, -⟩ := run_read_done hread
  obtain ⟨s₂, handle, hid, -⟩ := run_bind_done hid
  exact (idCreate_done hid).1

/-- The conversation leaves the lock as it is, if its first message goes out. -/
theorem queryAvailable_accepted (hk : lk.Sound) (hs : s.LockAt provider l lk)
    (ha : s.GoesOut provider) {x : Bytes}
    (hr : run t (queryAvailable lzo fuel device provider) s = .done s' x) :
    s'.LockAt provider l lk := by
  have hS : Area.lock ∉ [Area.look, .wire] := by decide
  have hK := passes_turns t provider l lk hS (by decide)
  have hsub : Area.spoken ⊆ [Area.look, .wire] := by decide
  obtain ⟨s₁, dv, hread, hid⟩ := run_bind_done hr
  obtain ⟨rfl, -⟩ := run_read_done hread
  obtain ⟨s₂, handle, hid, hcall⟩ := run_bind_done hid
  obtain ⟨-, rfl⟩ := idCreate_done hid
  obtain ⟨s₃, result, hcall, hrest⟩ := run_bind_done hcall
  have hs₃ : s₃.LockAt provider l lk :=
    call_accepted hk hs.withId ha (fun _ _ hp => turns_response hp .remoteAllocateSize) hcall
  refine hs₃.of_turns hrest ?_
  cases result with
  | none => exact turns_pure _
  | some result =>
    refine hK.bind (passes_claraSendExecuteRequest hK hsub provider _ _ _) fun b => ?_
    refine turns_ite (hK.bind (passes_claraRecvExecuteResponse hK hsub provider) fun r => ?_)
      (turns_pure _)
    cases r with
    | none => exact turns_pure _
    | some retval =>
      refine hK.bind (passes_claraSendFetchRequest hK hsub provider _ _ _ _) fun b => ?_
      exact turns_ite (hK.bind (passes_claraRecvFetchResponse hK hsub lzo fuel provider 4)
        fun _ => turns_pure _) (turns_pure _)

/-- Without its first message it returns with the lock taken once more. -/
theorem queryAvailable_refused (lzo : Lzo) (fuel : ℕ) (hs : s.LockAt provider l lk)
    (hw : lk.wait t = some lk')
    (hd : s.heap .device device = some dv) (hid : s.Reserves t) (hn : ¬ s.GoesOut provider) :
    ∃ s', run t (queryAvailable lzo fuel device provider) s = .done s' (Bytes.ofNat 4 0) ∧
      s'.LockAt provider l lk' := by
  obtain ⟨s', hcall, hs'⟩ := agentRemoteAllocate_refused hs.withId hw hn
    ⟨s.candidates s.draws, 1, 4, invalidHandle⟩ []
  refine ⟨s', ?_, hs'⟩
  rw [queryAvailable]
  simp only
  rw [run_bind, run_read hd, Outcome.bind_done, run_bind, run_idCreate hid.1 hid.2,
    Outcome.bind_done, run_bind, hcall]
  rfl

/-- A device that is not marked as available is not asked about. -/
theorem run_agentDeviceIsAvailable_unmarked (hd : s.heap .device device = some dv)
    (havail : dv.available = false) (lzo : Lzo) (fuel : ℕ) :
    run t (agentDeviceIsAvailable lzo fuel device) s = .done s (Bytes.ofNat 4 0) := by
  rw [agentDeviceIsAvailable, run_bind, run_read hd, Outcome.bind_done, havail]
  rfl

private theorem run_agentDeviceIsAvailable_marked (hd : s.heap .device device = some dv)
    (havail : dv.available = true) (lzo : Lzo) (fuel : ℕ) :
    run t (agentDeviceIsAvailable lzo fuel device) s =
      run t (providerLock dv.provider >>= fun _ =>
        queryAvailable lzo fuel device dv.provider >>= fun result =>
          providerUnlock dv.provider >>= fun _ => pure result) s := by
  rw [agentDeviceIsAvailable, run_bind, run_read hd, Outcome.bind_done, havail]
  rfl

theorem run_agentDeviceIsAvailable_blocked (hs : s.LockAt dv.provider l lk)
    (hw : lk.wait t = none) (hd : s.heap .device device = some dv) (havail : dv.available = true)
    (lzo : Lzo) (fuel : ℕ) : run t (agentDeviceIsAvailable lzo fuel device) s = .blocked := by
  rw [run_agentDeviceIsAvailable_marked hd havail, run_bind, run_providerLock_blocked hs hw]
  rfl

theorem run_agentDeviceIsAvailable_wait (hs : s.LockAt dv.provider l lk)
    (hw : lk.wait t = some lk') (hd : s.heap .device device = some dv)
    (havail : dv.available = true) (lzo : Lzo) (fuel : ℕ) :
    run t (agentDeviceIsAvailable lzo fuel device) s =
      run t (queryAvailable lzo fuel device dv.provider >>= fun result =>
        providerUnlock dv.provider >>= fun _ => pure result) (s.put .lock l (some lk')) := by
  rw [run_agentDeviceIsAvailable_marked hd havail, run_bind, run_providerLock_wait hs hw,
    Outcome.bind_done]

/-- The query leaves the lock as it was if it waits, or the agent does not ask, or never gets to
ask, or its first message goes out. -/
theorem agentDeviceIsAvailable_restores_iff (hk : lk.Sound) (hs : s.LockAt dv.provider l lk)
    (hd : s.heap .device device = some dv) (lzo : Lzo) (fuel : ℕ) :
    Restores t l (agentDeviceIsAvailable lzo fuel device) s ↔
      dv.available = false ∨ lk.wait t = none ∨ ¬ s.Reserves t ∨ s.GoesOut dv.provider := by
  cases havail : dv.available with
  | false =>
    refine iff_of_true (fun s' x hr => ?_) (.inl rfl)
    rw [run_agentDeviceIsAvailable_unmarked hd havail] at hr
    obtain ⟨rfl, -⟩ := Outcome.done.inj hr
    rfl
  | true =>
    simp only [Bool.true_eq_false, false_or]
    cases hw : lk.wait t with
    | none =>
      refine iff_of_true (fun s' x hr => ?_) (.inl rfl)
      rw [run_agentDeviceIsAvailable_blocked hs hw hd havail] at hr
      cases hr
    | some lk' =>
      have hpost := Lock.post_wait hk hw
      have hs₁ := hs.put lk'
      simp only [Restores, run_agentDeviceIsAvailable_wait hs hw hd havail, run_bind, reduceCtorEq,
        false_or]
      constructor
      · intro h
        by_contra hnot
        simp only [not_or, not_not] at hnot
        obtain ⟨hid, hn⟩ := hnot
        obtain ⟨lk'', hw'⟩ := Lock.wait_wait hw
        have hd₁ : (s.put .lock l (some lk')).heap .device device = some dv :=
          (congrFun (s.put_heap_kind l _ (by decide)) device).trans hd
        obtain ⟨s', hquery, hs'⟩ := queryAvailable_refused lzo fuel hs₁ hw' hd₁
          ⟨hid.1.put, hid.2⟩ hn
        have hsame := h (s'.put .lock l (some lk')) (Bytes.ofNat 4 0) (by
          rw [hquery, Outcome.bind_done, run_providerUnlock_post hs'
            (Lock.post_wait (Lock.wait_sound hw) hw'), Outcome.bind_done]
          rfl)
        rw [State.put_heap_self, hs.2] at hsame
        exact Lock.wait_ne hw (Option.some.inj hsame)
      · intro hcond s' x hr
        obtain ⟨s₂, result, hquery, hunlock⟩ := Outcome.bind_eq_done hr
        have ha : (s.put .lock l (some lk')).GoesOut dv.provider := by
          have hid := queryAvailable_reserves hquery
          exact hcond.resolve_left (not_not.mpr ⟨⟨hid.1.sound, hid.1.admits⟩, hid.2⟩)
        have hs₂ := queryAvailable_accepted (Lock.wait_sound hw) hs₁ ha hquery
        rw [← run_bind] at hunlock
        have hend := hs₂.of_turns hunlock
          ((turns_providerUnlock hpost).bind fun _ => turns_pure _)
        exact hend.2.trans hs.2.symm

/-- The conversation ends, or waits, before the memory is fetched: the stream options for that are
`NULL`. -/
def State.StopsShort (s : State) (provider : Addr) : Prop :=
  ∀ i later, (s.net (.provider provider)).inq = i :: later → i.Answers ∧ ∀ b, i.stored 8 = some b →
    (s.net (.provider provider)).sendFails.tail.head? = some true ∨
      ∀ j later', later = j :: later' → ¬ j.Kills 8 ∧ ∀ b', j.stored 8 = some b' → b'.length = 8 →
        b.wordAt 0 = invalidHandle

private theorem aborts_queryRest (result : Handle) (d : Arg) (argv : List Arg) :
    (run t (do
      if ← net (claraSendExecuteRequest (.provider provider) d argv invalidHandle) then
        match ← net (claraRecvExecuteResponse (.provider provider)) with
        | none => pure (Bytes.ofNat 4 0)
        | some retval =>
          if ← claraSendFetchRequest (.provider provider) result 4 0 none then
            let (received, buf) ← net (claraRecvFetchResponse lzo (.provider provider) fuel 4)
            pure (if received ∧ retval.toUInt32 = 0 then buf else Bytes.ofNat 4 0)
          else pure (Bytes.ofNat 4 0)
      else pure (Bytes.ofNat 4 0) : AProg Bytes) s).Aborts ↔
      ¬ ((s.net (.provider provider)).sendFails.head? = some true ∨
        ∀ j later', (s.net (.provider provider)).inq = j :: later' → ¬ j.Kills 8 ∧
          ∀ b', j.stored 8 = some b' → b'.length = 8 → result = invalidHandle) := by
  obtain ⟨n, r, hsend, ht⟩ := s.net.tried_sendmsg (.provider provider) Msg.executeRequest
    (Bytes.words (invalidHandle :: d :: 0 :: argv))
  have hrun : run t (net (claraSendExecuteRequest (.provider provider) d argv invalidHandle)) s =
      .done (s.withNet n) r.isSome := by
    rw [run_net, claraSendExecuteRequest, sendRequest, Net.run_bind, hsend, Outcome.bind_done]
    cases r <;> rfl
  have hr := ht.result
  rw [run_bind, hrun, Outcome.bind_done]
  split_ifs at hr with hf
  · subst hr
    exact iff_of_false id fun h => h (.inl hf)
  subst hr
  rw [or_iff_right hf]
  simp only [Option.isSome_some, if_true]
  rw [run_bind, ← ht.inq]
  cases hq : ((s.withNet n).net (.provider provider)).inq with
  | nil =>
    rw [claraRecvExecuteResponse, run_net, Net.run_recvWord_nil hq]
    refine iff_of_false id fun h => h fun j later' heq => ?_
    rw [State.withNet_net] at hq
    rw [hq] at heq
    cases heq
  | cons j later' =>
    have hcons : (∀ i later, (n (.provider provider)).inq = i :: later → ¬ i.Kills 8 ∧
        ∀ b', i.stored 8 = some b' → b'.length = 8 → result = invalidHandle) ↔ ¬ j.Kills 8 ∧
          ∀ b', j.stored 8 = some b' → b'.length = 8 → result = invalidHandle := by
      refine ⟨fun h => h j later' hq, fun h i later heq => ?_⟩
      obtain ⟨rfl, -⟩ := List.cons.inj (hq.symm.trans heq)
      exact h
    rw [hcons]
    by_cases hk : j.Kills 8
    · refine iff_of_true (Outcome.Aborts.bind (aborts_net.mpr ?_) _) fun h => h.1 hk
      exact Net.aborts_recvmsg_killed hq hk _
    rw [claraRecvExecuteResponse, run_net, Net.run_recvWord_cons hq hk]
    simp only [Outcome.bind_done]
    cases hj : j.stored 8 with
    | none =>
      refine iff_of_false id fun h => h ⟨hk, fun b' hb' => ?_⟩
      cases hb'
    | some b =>
      simp only [Option.bind_some, Option.some.injEq]
      by_cases hlen : b.length = 8
      · rw [if_pos hlen]
        simp only [claraSendFetchRequest]
        by_cases hresult : result = invalidHandle
        · rw [if_pos hresult]
          exact iff_of_false id fun h => h ⟨hk, fun _ _ _ => hresult⟩
        · rw [if_neg hresult]
          exact iff_of_true trivial fun h => hresult (h.2 b rfl hlen)
      · rw [if_neg hlen]
        refine iff_of_false id fun h => h ⟨hk, ?_⟩
        rintro b' rfl hlen'
        exact absurd hlen' hlen

private theorem aborts_queryAvailable (hk : lk.Sound) (hs : s.LockAt provider l lk)
    (hw : lk.wait t = some lk') (hd : s.heap .device device = some dv) (hid : s.Reserves t)
    (ha : s.GoesOut provider) :
    (run t (queryAvailable lzo fuel device provider) s).Aborts ↔ ¬ s.StopsShort provider := by
  obtain ⟨s', hs', hinq, hfails, hcall⟩ := run_agentRemoteAllocate_sent hs.withId hw ha
    ⟨s.candidates s.draws, 1, 4, invalidHandle⟩ []
  have hpost := Lock.post_wait hk hw
  rw [queryAvailable]
  simp only
  rw [run_bind, run_read hd, Outcome.bind_done, run_bind, run_idCreate hid.1 hid.2,
    Outcome.bind_done, run_bind, hcall]
  cases hq : (s.net (.provider provider)).inq with
  | nil =>
    rw [run_response_nil (hinq.trans hq)]
    refine iff_of_false id fun h => h fun i later heq => ?_
    rw [hq] at heq
    cases heq
  | cons i later =>
    have hcons : s.StopsShort provider ↔ i.Answers ∧ ∀ b, i.stored 8 = some b →
        (s.net (.provider provider)).sendFails.tail.head? = some true ∨
          ∀ j later', later = j :: later' → ¬ j.Kills 8 ∧
            ∀ b', j.stored 8 = some b' → b'.length = 8 → b.wordAt 0 = invalidHandle := by
      refine ⟨fun h => h i later hq, fun h i' later' heq => ?_⟩
      obtain ⟨rfl, rfl⟩ := List.cons.inj (hq.symm.trans heq)
      exact h
    rw [hcons]
    by_cases hi : i.Kills 8
    · have hanswers : ¬ s'.Answers provider := fun h => (h i later (hinq.trans hq)).1 hi
      exact iff_of_true (((aborts_response hs' hpost _).mpr hanswers).bind _) fun h => h.1.1 hi
    rw [run_response hs' hpost _ (hinq.trans hq) hi]
    cases hb : i.stored 8 with
    | none => exact iff_of_false id fun h => h ⟨⟨hi, by simp [hb]⟩, nofun⟩
    | some b =>
      simp only
      split_ifs with hlen
      · rw [Outcome.bind_done, Incoming.left_of_stored hb, List.nil_append]
        refine (aborts_queryRest (b.wordAt 0) 3 _).trans (not_congr ?_)
        rw [State.put_net, State.withNet_net, Net.withInq_inq, Net.withInq_sendFails, hfails]
        refine ⟨fun h => ⟨⟨hi, fun b' hb' => ?_⟩, fun b' hb' => ?_⟩, fun h => h.2 b rfl⟩
        · obtain rfl := Option.some.inj (hb.symm.trans hb')
          exact hlen
        · obtain rfl := Option.some.inj hb'
          exact h
      · exact iff_of_true trivial fun h => hlen (h.1.2 b hb)

/-- A query that returns is followed by an unlock that does not abort. -/
private theorem aborts_queryAvailable_unlock (hk : lk.Sound) (hs : s.LockAt provider l lk)
    (hpost : lk.post t = some lk') (ha : s.GoesOut provider) :
    (run t (queryAvailable lzo fuel device provider >>= fun result =>
      providerUnlock provider >>= fun _ => pure result) s).Aborts ↔
      (run t (queryAvailable lzo fuel device provider) s).Aborts := by
  rw [run_bind]
  refine ⟨fun h => ?_, fun h => h.bind _⟩
  cases hrun : run t (queryAvailable lzo fuel device provider) s with
  | done s' x =>
    have hs' := queryAvailable_accepted hk hs ha hrun
    rw [hrun, Outcome.bind_done, run_bind, run_providerUnlock_post hs' hpost] at h
    exact h
  | fault f => trivial
  | blocked =>
    rw [hrun] at h
    exact h

theorem agentDeviceIsAvailable_lockNeutral_iff (hk : lk.Sound) (hs : s.LockAt dv.provider l lk)
    (hd : s.heap .device device = some dv) (lzo : Lzo) (fuel : ℕ) :
    LockNeutral t l (agentDeviceIsAvailable lzo fuel device) s ↔
      dv.available = false ∨ lk.wait t = none ∨ (s.setLock .idPool).admits t = false ∨
        s.Reserves t ∧ s.GoesOut dv.provider ∧ s.StopsShort dv.provider := by
  rw [lockNeutral_iff, agentDeviceIsAvailable_restores_iff hk hs hd]
  cases havail : dv.available with
  | false =>
    refine iff_of_true ⟨.inl rfl, ?_⟩ (.inl rfl)
    rw [run_agentDeviceIsAvailable_unmarked hd havail]
    exact id
  | true =>
    simp only [Bool.true_eq_false, false_or]
    cases hw : lk.wait t with
    | none =>
      refine iff_of_true ⟨.inl rfl, ?_⟩ (.inl rfl)
      rw [run_agentDeviceIsAvailable_blocked hs hw hd havail]
      exact id
    | some lk' =>
      simp only [reduceCtorEq, false_or]
      have hpost := Lock.post_wait hk hw
      obtain ⟨lk'', hw'⟩ := Lock.wait_wait hw
      have hs₁ := hs.put lk'
      have hd₁ : (s.put .lock l (some lk')).heap .device device = some dv :=
        (congrFun (s.put_heap_kind l _ (by decide)) device).trans hd
      obtain ⟨f, hquery⟩ := run_queryAvailable (t := t) lzo fuel dv.provider hd₁
      rw [run_agentDeviceIsAvailable_wait hs hw hd havail]
      cases hadm : (s.setLock .idPool).admits t with
      | false =>
        have hid : ¬ s.Reserves t := fun h => by
          rw [h.1.admits] at hadm
          cases hadm
        have hadm₁ : ((s.put .lock l (some lk')).setLock .idPool).admits t = false := hadm
        refine iff_of_true ⟨.inl hid, ?_⟩ (.inl rfl)
        rw [run_bind, hquery, run_idCreate_blocked hadm₁]
        exact id
      | true =>
        simp only [Bool.true_eq_false, false_or]
        by_cases hid : s.Reserves t
        · have hid₁ : (s.put .lock l (some lk')).Reserves t := ⟨hid.1.put, hid.2⟩
          have hshort : (s.put .lock l (some lk')).StopsShort dv.provider ↔
              s.StopsShort dv.provider := Iff.rfl
          simp only [hid, not_true_eq_false, false_or, true_and]
          refine and_congr_right fun ha => ?_
          rw [aborts_queryAvailable_unlock (Lock.wait_sound hw) hs₁ hpost ha,
            aborts_queryAvailable (Lock.wait_sound hw) hs₁ hw' hd₁ hid₁ ha, hshort, not_not]
        · have hadm₁ : ((s.put .lock l (some lk')).setLock .idPool).admits t = true := hadm
          have hid₁ : ¬ (s.put .lock l (some lk')).Reserves t := fun h =>
            hid ⟨⟨h.1.sound, h.1.admits⟩, h.2⟩
          refine iff_of_false (fun h => h.2 ?_) fun h => hid h.1
          rw [run_bind, hquery]
          exact ((aborts_idCreate hadm₁ hid₁).bind _).bind _

end

/-- When the functions that converse with a provider return with its lock at the nesting depth
it had, called by `t` in `s`. -/
structure CallsNeutral (t : Tid) (provider l : Addr) (lk : Lock) (s : State) : Prop where
  remoteAllocate : ∀ params extra,
    LockNeutral t l (agentRemoteAllocate provider params extra) s ↔
      lk.wait t = none ∨ s.GoesOut provider ∧ s.Answers provider
  remoteExecute : ∀ params,
    LockNeutral t l (agentRemoteExecute (some provider) params) s ↔
      lk.wait t = none ∨ s.GoesOut provider ∧ s.Answers provider
  noProvider : ∀ params, LockNeutral t l (agentRemoteExecute none params) s
  forwardFetch : ∀ frp stp consumer params,
    (∀ fuel, LockNeutral t l (agentForwardFetchOver frp stp fuel consumer provider params) s) ↔
      lk.wait t = none ∨ params.size = 0 ∨ s.Responds provider consumer
  forwardMemput : ∀ stp consumer params,
    (∀ fuel, LockNeutral t l (agentForwardMemputOver stp fuel consumer provider params) s) ↔
      lk.wait t = none ∨ ¬ s.GoesOut provider ∨ s.Uploads provider consumer
  deviceIsAvailable : ∀ lzo fuel device dv, s.heap .device device = some dv →
    dv.provider = provider →
    (LockNeutral t l (agentDeviceIsAvailable lzo fuel device) s ↔
      dv.available = false ∨ lk.wait t = none ∨ (s.setLock .idPool).admits t = false ∨
        s.Reserves t ∧ s.GoesOut provider ∧ s.StopsShort provider)

/-- A call is neutral if its request goes out and what comes back is what it expects; forwarding is
too if the request of an upload does not go out. -/
theorem callsNeutral (hk : lk.Sound) (hs : s.LockAt provider l lk) :
    CallsNeutral t provider l lk s where
  remoteAllocate := agentRemoteAllocate_lockNeutral_iff hk hs
  remoteExecute := agentRemoteExecute_lockNeutral_iff hk hs
  noProvider _ := ((turns_pure none).lockNeutral_iff hs).mpr id
  forwardFetch := agentForwardFetchOver_lockNeutral_iff hk hs
  forwardMemput := agentForwardMemputOver_lockNeutral_iff hk hs
  deviceIsAvailable lzo fuel device dv hd hp := by
    subst hp
    exact agentDeviceIsAvailable_lockNeutral_iff hk hs hd lzo fuel

/-- The small agent while the connection to its provider is down. -/
def State.unreachable : State := (State.small someIds).withNet fun _ => ⟨[], [], [true]⟩

theorem State.unreachable_lockAt : State.unreachable.LockAt 1 2 .free := ⟨⟨_, rfl, rfl⟩, rfl⟩

theorem callsNeutral_unreachable : CallsNeutral (.consumer 3) 1 2 .free .unreachable :=
  callsNeutral Lock.sound_free State.unreachable_lockAt

/-- The lock stays with the thread whose request could not be sent. -/
theorem not_lockNeutral_unreachable :
    ¬ LockNeutral (.consumer 3) 2 (agentRemoteAllocate 1 ⟨9, 1, 4, 9⟩ []) .unreachable := by
  rw [agentRemoteAllocate_lockNeutral_iff Lock.sound_free State.unreachable_lockAt]
  rintro (hw | ⟨ha, -⟩)
  · cases hw
  · exact ha rfl

end Clara.Agent
