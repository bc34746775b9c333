import Clara.Common.Rpc

/-! Which connections the functions of `net.c`, `block.c`, `stream.c`, `rpc_client.c` and
`rpc_server.c` use. -/
namespace Clara

open Conc

variable {Sd α β : Type}

def NetOp.On (T : Sd → Prop) : NetOp Sd → Prop
  | .sendmsg sd _ _ | .send sd _ | .recv sd _ | .recvmsg sd _ => T sd
  | .fail _ | .spin => True

/-- A call leaves the other connections alone. -/
theorem Net.exec_conn [DecidableEq Sd] {T : Sd → Prop} {o : NetOp Sd} {net net' : Net Sd}
    {r : o.Res} (ho : o.On T) (h : Net.exec o net = .done net' r) {sd : Sd} (hsd : ¬ T sd) :
    net' sd = net sd := by
  have hpost : ∀ (sd' : Sd) (m : Sent) (n : ℕ) (r : Option ℕ), T sd' →
      net.post sd' m n = .done net' r → net' sd = net sd := by
    intro sd' m n r hT h
    have hne : sd ≠ sd' := fun heq => hsd (heq ▸ hT)
    simp only [Net.post] at h
    split at h <;> obtain ⟨rfl, -⟩ := Outcome.done.inj h <;> exact Function.update_of_ne hne ..
  have htake : ∀ (sd' : Sd) (n : ℕ) (net₁ : Net Sd) (i : Incoming), T sd' →
      net.take sd' n = .done net₁ i → net₁ sd = net sd := by
    intro sd' n net₁ i hT h
    have hne : sd ≠ sd' := fun heq => hsd (heq ▸ hT)
    simp only [Net.take] at h
    split at h
    · cases h
    all_goals
      try split at h
      all_goals
        obtain ⟨rfl, -⟩ := Outcome.done.inj h
        exact Function.update_of_ne hne ..
  cases o with
  | sendmsg sd' type msg => exact hpost sd' _ _ r ho h
  | send sd' msg => exact hpost sd' _ _ r ho h
  | recv sd' len =>
    obtain ⟨net₁, i, ht, h⟩ := Outcome.bind_eq_done h
    cases i <;> obtain ⟨rfl, -⟩ := Outcome.done.inj h <;> exact htake sd' _ _ _ ho ht
  | recvmsg sd' len =>
    obtain ⟨net₁, i, ht, h⟩ := Outcome.bind_eq_done h
    have hsame := htake sd' _ _ _ ho ht
    cases i with
    | failure =>
      obtain ⟨rfl, -⟩ := Outcome.done.inj h
      exact hsame
    | notification b =>
      simp only at h
      split_ifs at h
      obtain ⟨rfl, -⟩ := Outcome.done.inj h
      exact hsame
    | record b =>
      simp only at h
      split_ifs at h
      obtain ⟨rfl, -⟩ := Outcome.done.inj h
      exact hsame
  | fail f => cases h
  | spin => cases h

theorem Net.take_eq_blocked [DecidableEq Sd] {net : Net Sd} {sd : Sd} {len : ℕ} :
    net.take sd len = .blocked ↔ (net sd).inq = [] := by
  rw [Net.take]
  constructor
  · intro h
    split at h
    · assumption
    · cases h
    · split_ifs at h
    · split_ifs at h
  · intro h
    rw [h]

/-- Whether a call waits is decided on its own connection. -/
theorem Net.exec_blocked [DecidableEq Sd] {T : Sd → Prop} {o : NetOp Sd} {net net' : Net Sd}
    (ho : o.On T) (hsame : ∀ sd, T sd → net' sd = net sd) (h : Net.exec o net = .blocked) :
    Net.exec o net' = .blocked := by
  have hpost : ∀ (sd : Sd) (m : Sent) (n : ℕ), net.post sd m n ≠ .blocked := by
    intro sd m n hp
    rw [Net.post] at hp
    split at hp
    · cases hp
    · cases hp
  have htake : ∀ (sd : Sd) (len : ℕ), T sd → net.take sd len = .blocked →
      net'.take sd len = .blocked := by
    intro sd len hT ht
    rw [Net.take_eq_blocked] at ht ⊢
    rw [hsame sd hT, ht]
  cases o with
  | sendmsg sd type msg => exact absurd h (hpost sd _ _)
  | send sd msg => exact absurd h (hpost sd _ _)
  | recv sd len =>
    cases hr : net.take sd len with
    | done n i =>
      rw [Net.exec, hr] at h
      cases i with
      | failure => cases h
      | record b => cases h
      | notification b => cases h
    | fault f =>
      rw [Net.exec, hr] at h
      cases h
    | blocked =>
      rw [Net.exec, htake sd len ho hr]
      rfl
  | recvmsg sd len =>
    cases hr : net.take sd (2 + len) with
    | done n i =>
      rw [Net.exec, hr] at h
      cases i with
      | failure => cases h
      | record b =>
        simp only [Outcome.bind_done] at h
        split_ifs at h
      | notification b =>
        simp only [Outcome.bind_done] at h
        split_ifs at h
    | fault f =>
      rw [Net.exec, hr] at h
      cases h
    | blocked =>
      rw [Net.exec, htake sd (2 + len) ho hr]
      rfl
  | fail f => cases h
  | spin => rfl

/-- Every call the program can make is on one of the connections `T`. -/
def NetProg.On (T : Sd → Prop) (p : NetProg Sd α) : Prop := p.All (NetOp.On T)

section
variable {T : Sd → Prop}

theorem on_pure (a : α) : NetProg.On T (pure a : NetProg Sd α) := trivial

theorem on_bind {p : NetProg Sd α} {f : α → NetProg Sd β} (hp : p.On T)
    (hf : ∀ a, (f a).On T) : NetProg.On T (p >>= f) := Prog.All.bind hp hf

theorem on_perform {o : NetOp Sd} (h : o.On T) : (NetProg.perform o).On T :=
  ⟨h, fun _ => trivial⟩

theorem on_fail (f : NetFault) : (NetProg.fail f : NetProg Sd α).On T := ⟨trivial, nofun⟩

theorem on_spin : (NetProg.spin : NetProg Sd α).On T := ⟨trivial, nofun⟩

theorem on_assert (b : Bool) (f : NetFault) : (NetProg.assert b f : NetProg Sd Unit).On T := by
  cases b with
  | true => exact on_pure ()
  | false => exact on_fail f

section
variable {sd : Sd} (h : T sd)

include h

theorem on_claraSendmsg (type : MessageType) (msg : Bytes) : (claraSendmsg sd type msg).On T :=
  on_perform h

theorem on_claraSend (msg : Bytes) : (claraSend sd msg).On T := on_perform h

theorem on_claraRecv (len : ℕ) : (claraRecv sd len).On T := on_perform h

theorem on_claraRecvmsg (len : ℕ) : (claraRecvmsg sd len).On T := on_perform h

private theorem on_blockSendLoop (fuel bs : ℕ) (ptr : Bytes) (n : ℕ) :
    (blockSendLoop sd fuel bs ptr n).On T := by
  induction fuel generalizing bs ptr n with
  | zero =>
    cases ptr with
    | nil => exact on_pure n
    | cons b ptr => exact on_spin
  | succ fuel ih =>
    cases ptr with
    | nil => exact on_pure n
    | cons b ptr =>
      refine on_bind (on_claraSend h _) fun ssz => ?_
      cases ssz with
      | none => exact on_pure n
      | some ssz => exact ih _ _ _

theorem on_blockSend (data : Bytes) : (blockSend sd data).On T := by
  refine on_bind (on_claraSendmsg h _ _) fun ssz => ?_
  cases ssz with
  | none => exact on_pure 0
  | some ssz => exact on_blockSendLoop h _ _ _ _

private theorem on_blockRecvLoop (fuel n : ℕ) (ptr : Bytes) :
    (blockRecvLoop sd fuel n ptr).On T := by
  induction fuel generalizing n ptr with
  | zero =>
    cases n with
    | zero => exact on_pure ptr
    | succ n => exact on_spin
  | succ fuel ih =>
    cases n with
    | zero => exact on_pure ptr
    | succ n =>
      refine on_bind (on_claraRecv h _) fun msg => ?_
      cases msg with
      | none => exact on_pure ptr
      | some msg => exact ih _ _

theorem on_blockRecv (fuel len : ℕ) (length : UInt64) : (blockRecv sd fuel len length).On T :=
  on_bind (on_assert _ _) fun _ => on_blockRecvLoop h _ _ _

theorem on_blockRecvNull (len : ℕ) (length : UInt64) : (blockRecvNull sd len length).On T := by
  refine on_bind (on_assert _ _) fun _ => ?_
  split_ifs
  · exact on_pure ()
  · exact on_bind (on_claraRecv h _) fun _ => on_pure ()

private theorem on_streamSendBlock (lzo : Lzo) (stp : StreamOptions) (raw : Bytes) :
    (streamSendBlock lzo sd stp raw).On T := by
  rw [streamSendBlock]
  split_ifs
  · exact on_bind (on_assert _ _) fun _ => on_bind (on_assert _ _) fun _ =>
      on_bind (on_blockSend h _) fun _ => on_assert _ _
  · exact on_bind (on_blockSend h _) fun _ => on_assert _ _

private theorem on_streamSendLoop (lzo : Lzo) (stp : StreamOptions) (fuel bs : ℕ) (ptr : Bytes)
    (n : ℕ) : (streamSendLoop lzo sd stp fuel bs ptr n).On T := by
  induction fuel generalizing bs ptr n with
  | zero =>
    cases ptr with
    | nil => exact on_pure n
    | cons b ptr => exact on_spin
  | succ fuel ih =>
    cases ptr with
    | nil => exact on_pure n
    | cons b ptr => exact on_bind (on_streamSendBlock h _ _ _) fun _ => ih _ _ _

theorem on_streamSend (lzo : Lzo) (data : Bytes) (opts : Option StreamOptions) :
    (streamSend lzo sd data opts).On T := by
  refine on_bind (on_claraSendmsg h _ _) fun ssz => ?_
  cases ssz with
  | none => exact on_pure 0
  | some ssz =>
    exact on_bind (on_streamSendLoop h _ _ _ _ _ _) fun _ =>
      on_bind (on_claraSendmsg h _ _) fun _ => on_pure _

private theorem on_streamRecvBlock (lzo : Lzo) (stp : StreamOptions) (fuel bs room : ℕ)
    (length : UInt64) : (streamRecvBlock lzo sd stp fuel bs room length).On T := by
  rw [streamRecvBlock]
  split_ifs
  · exact on_bind (on_blockRecv h _ _ _) fun _ => on_bind (on_assert _ _) fun _ =>
      on_bind (on_assert _ _) fun _ => on_pure _
  · exact on_bind (on_blockRecvNull h _ _) fun _ => on_fail _
  · exact on_bind (on_blockRecv h _ _ _) fun _ => on_bind (on_assert _ _) fun _ =>
      on_bind (on_assert _ _) fun _ => on_pure _

private theorem on_streamRecvLoop (lzo : Lzo) (stp : StreamOptions) (fuel room bs rem n : ℕ)
    (data : Bytes) : (streamRecvLoop lzo sd stp fuel room bs rem n data).On T := by
  induction fuel generalizing room bs rem n data with
  | zero => exact on_spin
  | succ fuel ih =>
    refine on_bind (on_claraRecvmsg h _) fun r => ?_
    cases r with
    | failed => exact on_pure _
    | notification b => exact on_fail _
    | message type blp =>
      simp only
      split_ifs
      · exact on_pure _
      · exact on_bind (on_streamRecvBlock h _ _ _ _ _ _) fun _ => ih _ _ _ _ _
      · exact on_fail _

theorem on_streamRecvInto (lzo : Lzo) (fuel room len : ℕ) :
    (streamRecvInto lzo sd fuel room len).On T := by
  refine on_bind (on_claraRecvmsg h _) fun r => ?_
  cases r.stored with
  | none => exact on_pure _
  | some stp =>
    simp only
    cases StreamOptions.ofBytes stp with
    | none => exact on_fail _
    | some stp => exact on_streamRecvLoop h _ _ _ _ _ _ _ _

theorem on_streamRecv (lzo : Lzo) (fuel len : ℕ) : (streamRecv lzo sd fuel len).On T :=
  on_streamRecvInto h lzo fuel len len

theorem on_sendRequest (type : MessageType) (msg : Bytes) : (sendRequest sd type msg).On T := by
  refine on_bind (on_claraSendmsg h _ _) fun r => ?_
  cases r with
  | none => exact on_pure _
  | some n => exact on_pure _

theorem on_recvWord : (recvWord sd).On T := by
  refine on_bind (on_claraRecvmsg h _) fun r => ?_
  cases r.stored with
  | none => exact on_pure _
  | some b =>
    simp only
    split_ifs
    · exact on_pure _
    · exact on_pure _

theorem on_claraSendFetchRequest (src : Handle) (n : UInt64) (hint : GlobalId)
    (opts : StreamOptions) : (claraSendFetchRequest sd src n hint opts).On T := by
  rw [claraSendFetchRequest]
  split_ifs
  · exact on_pure _
  · exact on_sendRequest h _ _

theorem on_claraRecvFetchResponse (lzo : Lzo) (fuel count : ℕ) :
    (claraRecvFetchResponse lzo sd fuel count).On T := by
  refine on_bind (on_claraRecvmsg h _) fun r => ?_
  cases r.stored with
  | none => exact on_pure _
  | some b => exact on_bind (on_assert _ _) fun _ => on_bind (on_streamRecv h _ _ _) fun _ => on_pure _

theorem on_claraRecvMapatptrResponse : (claraRecvMapatptrResponse sd).On T := by
  refine on_bind (on_claraRecvmsg h _) fun r => ?_
  cases r.stored with
  | none => exact on_pure _
  | some b =>
    simp only
    cases Bytes.whole 8 b with
    | none => exact on_fail _
    | some b => exact on_pure _

theorem on_claraSendAllocateResponse (handle : Handle) :
    (claraSendAllocateResponse sd handle).On T := by
  refine on_bind (on_claraSendmsg h _ _) fun r => ?_
  cases r with
  | none => exact on_pure _
  | some n => exact on_pure _

theorem on_claraSendFetchResponse (lzo : Lzo) (buf : Bytes) (opts : StreamOptions) :
    (claraSendFetchResponse lzo sd buf opts).On T := by
  refine on_bind (on_claraSendmsg h _ _) fun r => ?_
  cases r with
  | none => exact on_pure _
  | some n => exact on_bind (on_streamSend h _ _ _) fun _ => on_pure _

end

section
variable {sdIn sdOut : Sd} (hi : T sdIn) (ho : T sdOut)

include ho

private theorem on_blockForwardSend (fuel : ℕ) (ptr : Bytes) (n : ℕ) :
    (blockForwardSend sdOut fuel ptr n).On T := by
  induction fuel generalizing ptr n with
  | zero =>
    cases ptr with
    | nil => exact on_pure _
    | cons b ptr => exact on_spin
  | succ fuel ih =>
    cases ptr with
    | nil => exact on_pure _
    | cons b ptr =>
      refine on_bind (on_claraSend ho _) fun ssz => ?_
      cases ssz with
      | none => exact on_pure _
      | some ssz => exact ih _ _

include hi

private theorem on_blockForwardLoop (fuel bs rem n : ℕ) :
    (blockForwardLoop sdIn sdOut fuel bs rem n).On T := by
  induction fuel generalizing bs rem n with
  | zero =>
    cases rem with
    | zero => exact on_pure n
    | succ rem => exact on_spin
  | succ fuel ih =>
    cases rem with
    | zero => exact on_pure n
    | succ rem =>
      refine on_bind (on_claraRecv hi _) fun buf => ?_
      cases buf with
      | none => exact on_pure n
      | some buf =>
        refine on_bind (on_blockForwardSend ho _ _ _) fun r => ?_
        obtain ⟨b, forwarded⟩ := r
        cases b with
        | false => exact on_pure _
        | true => exact ih _ _ _

theorem on_blockForward (fuel : ℕ) (length : UInt64) :
    (blockForward sdIn sdOut fuel length).On T := by
  refine on_bind (on_claraSendmsg ho _ _) fun ssz => ?_
  cases ssz with
  | none => exact on_pure 0
  | some ssz => exact on_blockForwardLoop hi ho _ _ _ _

private theorem on_streamForwardLoop (fuel n : ℕ) :
    (streamForwardLoop sdIn sdOut fuel n).On T := by
  induction fuel generalizing n with
  | zero => exact on_spin
  | succ fuel ih =>
    refine on_bind (on_claraRecvmsg hi _) fun r => ?_
    cases r with
    | failed => exact on_pure n
    | notification b => exact on_fail _
    | message type blp =>
      simp only
      split_ifs
      · exact on_bind (on_claraSendmsg ho _ _) fun _ => on_pure _
      · exact on_bind (on_blockForward hi ho _ _) fun _ => ih _
      · exact on_fail _

theorem on_streamForwardWith (whole : Bytes → Option Bytes) (fuel : ℕ) :
    (streamForwardWith whole sdIn sdOut fuel).On T := by
  have hfrom : ∀ type stp, (streamForwardWith.streamForwardFrom whole sdIn sdOut fuel
      type stp).On T := fun type stp => by
    rw [streamForwardWith.streamForwardFrom]
    cases whole stp with
    | none => exact on_fail _
    | some stp =>
      refine on_bind (on_claraSendmsg ho _ _) fun ssz => ?_
      cases ssz with
      | none => exact on_pure 0
      | some ssz => exact on_streamForwardLoop hi ho _ _
  refine on_bind (on_claraRecvmsg hi _) fun r => ?_
  cases r with
  | failed => exact on_pure 0
  | notification stp => exact hfrom _ stp
  | message type stp => exact hfrom type stp

end

end

end Clara
