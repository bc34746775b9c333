import Clara.Agent.Nesting
import Clara.Common.Expected

/-! The callers of `clara_recvmsg` that expect a type: which messages each of them takes for a message
of that type. -/
namespace Clara.Agent

open Conc

/-- The callers that pass the type they expect. -/
inductive Caller
  | recvAllocateResponse
  | recvExecuteResponse
  | recvFetchResponse
  | recvMapatptrResponse
  | streamRecv
  | streamForward
  | remoteAllocate
  | remoteExecute

/-- `clara_recv_mapatptr_response` with what the structure on its stack held before. -/
def claraRecvMapatptrResponseOver (junk : Bytes) (sd : Sd) : AProg (Option Arg) :=
  net (claraRecvMapatptrResponseWith (fun b => some (Bytes.over b junk)) sd)

/-- With the message first on the connection the program can return something that satisfies `Q`,
whatever it needs besides. -/
def Accepts {α : Type} (sd : Sd) (p : AProg α) (Q : α → Prop) (i : Incoming) : Prop :=
  ∃ (t : Tid) (s s' : State) (later : List Incoming) (a : α),
    (s.net sd).inq = i :: later ∧ run t p s = .done s' a ∧ Q a

namespace Caller

/-- The type that the caller passes to `clara_recvmsg`. -/
def expected : Caller → MessageType
  | .recvAllocateResponse | .remoteAllocate => Msg.allocateResponse
  | .recvExecuteResponse | .remoteExecute => Msg.executeResponse
  | .recvFetchResponse => Msg.fetchResponse
  | .recvMapatptrResponse => Msg.mapatptrResponse
  | .streamRecv | .streamForward => Msg.streamStart

/-- The caller can report success after it has received the message: it returns `true`, or the
length that it was asked for, or the number of bytes that it has forwarded. -/
def Succeeds {S : Type} [DecidableEq S] (lzo : Lzo) (sd : S) (k : Caller) (i : Incoming) : Prop :=
  match k with
  | .recvAllocateResponse =>
    NetAccepts sd (claraRecvAllocateResponse sd) (fun x => x.isSome) i
  | .recvExecuteResponse =>
    NetAccepts sd (claraRecvExecuteResponse sd) (fun x => x.isSome) i
  | .recvFetchResponse => ∃ fuel count,
    NetAccepts sd (claraRecvFetchResponse lzo sd fuel count) (fun x => x.1 = true) i
  | .recvMapatptrResponse => ∃ junk provider, junk.length = 8 ∧
    Accepts (.provider provider) (claraRecvMapatptrResponseOver junk (.provider provider))
      (fun x => x.isSome) i
  | .streamRecv => ∃ junk fuel len, junk.length = 16 ∧ 0 < len ∧
    NetAccepts sd (streamRecvOver junk lzo sd fuel len) (fun x => x.1 = len) i
  | .streamForward => ∃ sdIn sdOut : Sd, sdIn ≠ sdOut ∧ ∃ junk fuel, junk.length = 16 ∧
    NetAccepts sdIn (streamForwardOver junk sdIn sdOut fuel) (fun n => 0 < n) i
  | .remoteAllocate => ∃ provider params extra,
    Accepts (.provider provider) (agentRemoteAllocate provider params extra) (fun x => x.isSome) i
  | .remoteExecute => ∃ provider params,
    Accepts (.provider provider) (agentRemoteExecute (some provider) params) (fun x => x.isSome) i

/-- The length of the message is one that the caller takes, whatever the type. -/
def Takes (lzo : Lzo) (k : Caller) (i : Incoming) : Prop :=
  match k with
  | .recvAllocateResponse | .recvExecuteResponse | .recvFetchResponse | .remoteAllocate
  | .remoteExecute => ∃ b, i.stored 8 = some b ∧ b.length = 8
  | .recvMapatptrResponse => ∃ b, i.stored 8 = some b
  | .streamRecv => ∃ b, ∃ junk : Bytes, i.stored 16 = some b ∧ junk.length = 16 ∧
    (streamRecvOver.readOptions (Bytes.over b junk)).Yields lzo
  | .streamForward => ∃ b, i.stored 16 = some b

/-- Success is reported only for a message of the type that is expected. -/
def Enforces {S : Type} [DecidableEq S] (lzo : Lzo) (sd : S) (k : Caller) (i : Incoming) : Prop :=
  k.Succeeds lzo sd i → i.IsMessage k.expected

end Caller

section
variable {t : Tid} {s s' : State} {i : Incoming} {later : List Incoming} {provider : Addr}

theorem run_net_of_done {α : Type} {p : NetProg Sd α} {a : α}
    (h : run t (net p) s = .done s' a) :
    ∃ n, Net.run p s.net = .done n a ∧ s' = s.withNet n := by
  rw [run_net] at h
  cases hp : Net.run p s.net with
  | done n b =>
    rw [hp] at h
    obtain ⟨rfl, rfl⟩ := Outcome.done.inj h
    exact ⟨n, rfl, rfl⟩
  | fault f =>
    rw [hp] at h
    cases h
  | blocked =>
    rw [hp] at h
    cases h

theorem net_of_providerLock {x : Unit} (h : run t (providerLock provider) s = .done s' x) :
    s'.net = s.net := by
  obtain ⟨s₁, p, hread, hwait⟩ := run_bind_done h
  obtain ⟨rfl, -⟩ := run_read_done hread
  rw [lockWait, perform, run, Prog.run_perform, exec] at hwait
  split at hwait
  · cases hwait
  · split at hwait
    · cases hwait
    · obtain ⟨rfl, -⟩ := Outcome.done.inj hwait
      rfl

/-- What a remote call does after its request. -/
def response (provider : Addr) (a : Assertion) : Option ℕ → AProg (Option Arg)
  | none => pure none
  | some _ => remoteResponse provider a

theorem agentRemoteAllocate_eq (params : AllocateRequest) (extra : Bytes) :
    agentRemoteAllocate provider params extra = providerLock provider >>= fun _ =>
      net (claraSendmsg (.provider provider) Msg.allocateRequest (params.bytes ++ extra)) >>=
        response provider .remoteAllocateSize := by
  rw [agentRemoteAllocate]
  congr

theorem agentRemoteExecute_eq (params : ExecuteRequest) :
    agentRemoteExecute (some provider) params = providerLock provider >>= fun _ =>
      net (claraSendmsg (.provider provider) Msg.executeRequest params.bytes) >>=
        response provider .remoteExecuteSize := by
  rw [agentRemoteExecute]
  congr

private theorem remote_done {a : Assertion} {x : Arg}
    (hq : (s.net (.provider provider)).inq = i :: later)
    (h : run t (remoteResponse provider a) s = .done s' (some x)) :
    ∃ b, i.stored 8 = some b ∧ b.length = 8 := by
  obtain ⟨s₁, r, hrecv, h⟩ := run_bind_done h
  obtain ⟨n, hn, -⟩ := run_net_of_done hrecv
  obtain ⟨s₂, _, -, h⟩ := run_bind_done h
  cases hr : r.stored with
  | none =>
    rw [hr] at h
    cases h
  | some b =>
    refine ⟨b, Net.stored_of_run hq hn hr, ?_⟩
    by_contra hlen
    simp only [hr, beq_eq_false_iff_ne.mpr hlen, run_bind, run_assert] at h
    cases h

/-- A remote call reports success only for a response of eight bytes. -/
private theorem call_done {type : MessageType} {msg : Bytes} {a : Assertion} {x : Arg}
    (hq : (s.net (.provider provider)).inq = i :: later)
    (h : run t (providerLock provider >>= fun _ =>
      net (claraSendmsg (.provider provider) type msg) >>= response provider a) s =
        .done s' (some x)) : ∃ b, i.stored 8 = some b ∧ b.length = 8 := by
  obtain ⟨s₁, _, hlock, h⟩ := run_bind_done h
  obtain ⟨s₂, r, hsend, h⟩ := run_bind_done h
  obtain ⟨n, hn, rfl⟩ := run_net_of_done hsend
  have hinq : (n (.provider provider)).inq = i :: later := by
    rw [Net.run_claraSendmsg_inq hn, net_of_providerLock hlock, hq]
  cases r with
  | none => cases h
  | some k => exact remote_done hinq h

/-- Whatever its type, a response of eight bytes is the answer. -/
theorem run_call_stored {type : MessageType} {msg : Bytes} {a : Assertion} {p : Provider} {b : Bytes}
    (hp : s.heap .provider provider = some p) (hl : s.heap .lock p.lock = some .free)
    (hf : (s.net (.provider provider)).sendFails = [])
    (hq : (s.net (.provider provider)).inq = i :: later) (hb : i.stored 8 = some b)
    (hlen : b.length = 8) :
    run t (providerLock provider >>= fun _ => net (claraSendmsg (.provider provider) type msg) >>=
      response provider a) s =
        .done (s.withNet ((s.net.push (.provider provider) [.msg type msg]).withInq
          (.provider provider) later)) (some (b.wordAt 0)) := by
  have hsend := Net.run_claraSendmsg hf type msg
  have hinq : (s.net.push (.provider provider) [.msg type msg] (.provider provider)).inq =
      i :: later := by
    rw [Net.push, Function.update_self]
    exact hq
  obtain ⟨r, hrecv, hr⟩ := Net.run_claraRecvmsg_stored hinq hb
  obtain ⟨n, hn⟩ : ∃ n, n = (s.net.push (.provider provider) [.msg type msg]).withInq
    (.provider provider) later := ⟨_, rfl⟩
  have hunlock : run t (providerUnlock provider)
      ((s.put .lock p.lock (some ⟨some t, 1⟩)).withNet n) = .done (s.withNet n) () :=
    @run_providerUnlock t (s.withNet n) provider p hp hl
  rw [← hn] at hrecv ⊢
  rw [run_bind, run_providerLock hp hl, Outcome.bind_done, run_bind, run_net]
  simp only [State.put_net, hsend, Outcome.bind_done, response, remoteResponse]
  rw [run_bind, run_net]
  simp only [State.withNet_net, hrecv, Outcome.bind_done, State.withNet_withNet]
  rw [run_bind, hunlock, Outcome.bind_done, hr]
  simp only [hlen, beq_self_eq_true, run_bind, run_assert, if_true, Outcome.bind_done]
  rfl

/-- The small agent, on every connection of which the message waits. -/
def State.offering (i : Incoming) : State := (State.small someIds).withNet (Net.offering i [])

private theorem call_accepts {type : MessageType} {msg : Bytes} {a : Assertion} {b : Bytes}
    (hb : i.stored 8 = some b) (hlen : b.length = 8) :
    Accepts (.provider 1) (providerLock 1 >>= fun _ =>
      net (claraSendmsg (.provider 1) type msg) >>= response 1 a) (fun x => x.isSome) i :=
  ⟨.consumer 3, State.offering i, _, [], _, rfl, run_call_stored rfl rfl rfl rfl hb hlen, rfl⟩

/-- Even one that is too short is the answer to a request to map an address. -/
private theorem accepts_claraRecvMapatptrResponseOver_iff :
    (∃ junk provider, junk.length = 8 ∧ Accepts (.provider provider)
      (claraRecvMapatptrResponseOver junk (.provider provider)) (fun x => x.isSome) i) ↔
      ∃ b, i.stored 8 = some b := by
  constructor
  · rintro ⟨junk, provider, -, t, s, s', later, x, hq, hrun, hx⟩
    obtain ⟨n, hn, rfl⟩ := run_net_of_done hrun
    rw [claraRecvMapatptrResponseWith, Net.run_bind] at hn
    obtain ⟨n₁, r, hrecv, hrest⟩ := Outcome.bind_eq_done hn
    cases hr : r.stored with
    | none =>
      rw [hr] at hrest
      obtain ⟨-, rfl⟩ := Outcome.done.inj hrest
      cases hx
    | some b => exact ⟨b, Net.stored_of_run hq hrecv hr⟩
  · rintro ⟨b, hb⟩
    have hq : ((State.offering i).net (.provider 1)).inq = [i] := rfl
    obtain ⟨r, hrecv, hr⟩ := Net.run_claraRecvmsg_stored hq hb
    obtain ⟨junk, hjunk⟩ : ∃ x : Bytes, x = List.replicate 8 0 := ⟨_, rfl⟩
    have hj : junk.length = 8 := by rw [hjunk, List.length_replicate]
    have hrun : run (.consumer 3) (claraRecvMapatptrResponseOver junk (.provider 1))
        (State.offering i) = .done ((State.offering i).withNet
          ((State.offering i).net.withInq (.provider 1) []))
            (some ((Bytes.over b junk).wordAt 0)) := by
      rw [claraRecvMapatptrResponseOver, run_net, claraRecvMapatptrResponseWith, Net.run_bind, hrecv,
        Outcome.bind_done]
      simp only [hr, Net.run_pure]
    exact ⟨junk, 1, hj, .consumer 3, State.offering i, _, [], _, rfl, hrun, rfl⟩

/-- Whether a caller takes a message is a matter of lengths. -/
theorem Caller.succeeds_iff {S : Type} [DecidableEq S] (lzo : Lzo) (sd : S) (k : Caller)
    (i : Incoming) : k.Succeeds lzo sd i ↔ k.Takes lzo i := by
  cases k with
  | recvAllocateResponse => exact netAccepts_recvWord sd
  | recvExecuteResponse => exact netAccepts_recvWord sd
  | recvFetchResponse => exact netAccepts_claraRecvFetchResponse lzo sd
  | recvMapatptrResponse => exact accepts_claraRecvMapatptrResponseOver_iff
  | streamRecv => exact netAccepts_streamRecvOver lzo sd
  | streamForward =>
    constructor
    · rintro ⟨sdIn, sdOut, hne, h⟩
      exact (netAccepts_streamForwardOver hne).mp h
    · intro h
      have hne : Sd.consumer 3 ≠ .provider 1 := nofun
      exact ⟨.consumer 3, .provider 1, hne, (netAccepts_streamForwardOver hne).mpr h⟩
  | remoteAllocate =>
    constructor
    · rintro ⟨provider, params, extra, t, s, s', later, x, hq, hrun, hx⟩
      rw [agentRemoteAllocate_eq] at hrun
      obtain ⟨y, rfl⟩ := Option.isSome_iff_exists.mp hx
      exact call_done hq hrun
    · rintro ⟨b, hb, hlen⟩
      refine ⟨1, ⟨9, 1, 4, 9⟩, [], ?_⟩
      rw [agentRemoteAllocate_eq]
      exact call_accepts hb hlen
  | remoteExecute =>
    constructor
    · rintro ⟨provider, params, t, s, s', later, x, hq, hrun, hx⟩
      rw [agentRemoteExecute_eq] at hrun
      obtain ⟨y, rfl⟩ := Option.isSome_iff_exists.mp hx
      exact call_done hq hrun
    · rintro ⟨b, hb, hlen⟩
      refine ⟨1, ⟨9, 8, fun _ => 0, 5⟩, ?_⟩
      rw [agentRemoteExecute_eq]
      exact call_accepts hb hlen

end

/-- Success is reported only for a message of the expected type exactly if the message has that type
or is refused for its length. -/
theorem Caller.enforces_iff {S : Type} [DecidableEq S] (lzo : Lzo) (sd : S) (k : Caller)
    (i : Incoming) : k.Enforces lzo sd i ↔ i.IsMessage k.expected ∨ ¬ k.Takes lzo i := by
  rw [Enforces, succeeds_iff, imp_iff_or_not]

/-- A FETCH response of eight bytes. -/
def eightBytes : Incoming := .record (Sent.msg Msg.fetchResponse (Bytes.word 5)).record

/-- It is taken for the response to an ALLOCATE. -/
theorem Caller.not_enforces_eightBytes :
    ¬ Caller.recvAllocateResponse.Enforces literalLzo () eightBytes := by
  intro h
  have hsucceeds : Caller.recvAllocateResponse.Succeeds literalLzo () eightBytes :=
    (succeeds_iff literalLzo () .recvAllocateResponse eightBytes).mpr
      ⟨Bytes.word 5, by decide, by decide⟩
  obtain ⟨payload, hmessage⟩ := h hsucceeds
  have htypes := congrArg (fun b => UInt16.ofNat (Bytes.toNat (List.take 2 b)))
    (Incoming.record.inj hmessage)
  simp only [Net.record_type] at htypes
  cases htypes

end Clara.Agent
