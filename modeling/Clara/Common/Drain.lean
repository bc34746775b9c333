import Clara.Common.Relay

/-! Forwarding a stream when sends fail. A failure inside a block leaves its data on the connection
that it came from, where `stream_forward` then takes it for messages. -/
namespace Clara

open Conc

variable {Sd : Type}

/-- What waits on the connection begins with a message of the stream `rs`, and `later` comes behind
the stream. -/
def Net.AtMessage (rs : List Sent) (later : List Incoming) (sd : Sd) (net : Net Sd) : Prop :=
  ∃ type payload rest, (.msg type payload :: rest) <:+ rs ∧
    (net sd).inq = Net.incoming (.msg type payload :: rest) ++ later

/-- A message is received from the connection only where the stream has one. -/
def NetOp.ReadsMessages (rs : List Sent) (later : List Incoming) (sd : Sd) :
    NetOp Sd → Net Sd → Prop
  | .recvmsg sd' _, net => sd' = sd → net.AtMessage rs later sd
  | _, _ => True

def Succeeds (fails : List Bool) (n : ℕ) : Prop := ∀ i < n, fails[i]? ≠ some true

def Passable : List Bool → List Bytes → Prop
  | _, [] => True
  | fails, b :: blks => Succeeds fails (blockData b).length ∧
    Passable (fails.drop (blockRecords b).length) blks

@[simp] theorem succeeds_zero (fails : List Bool) : Succeeds fails 0 :=
  fun _ h => absurd h (Nat.not_lt_zero _)

theorem succeeds_succ {fails : List Bool} {n : ℕ} :
    Succeeds fails (n + 1) ↔ fails.head? ≠ some true ∧ Succeeds fails.tail n := by
  constructor
  · intro h
    refine ⟨?_, fun i hi => ?_⟩
    · rw [List.head?_eq_getElem?]
      exact h 0 (Nat.succ_pos n)
    · rw [List.getElem?_tail]
      exact h (i + 1) (Nat.succ_lt_succ hi)
  · rintro ⟨hhead, htail⟩ i hi
    cases i with
    | zero => rwa [← List.head?_eq_getElem?]
    | succ i =>
      rw [← List.getElem?_tail]
      exact htail i (Nat.lt_of_succ_lt_succ hi)

section
variable [DecidableEq Sd] {net net' : Net Sd} {sd sdIn sdOut : Sd}

structure Net.Tried (sd : Sd) (n : ℕ) (net net' : Net Sd) (r : Option ℕ) : Prop where
  inq : ∀ sd', (net' sd').inq = (net sd').inq
  others : ∀ sd', sd' ≠ sd → net' sd' = net sd'
  fails : (net' sd).sendFails = (net sd).sendFails.tail
  result : r = if (net sd).sendFails.head? = some true then none else some n

private theorem tried_post (net : Net Sd) (sd : Sd) (m : Sent) (n : ℕ) :
    ∃ net' r, net.post sd m n = .done net' r ∧ Net.Tried sd n net net' r := by
  have hinq : ∀ (c : Conn) (sd' : Sd), c.inq = (net sd).inq →
      (Function.update net sd c sd').inq = (net sd').inq := by
    intro c sd' hc
    rcases eq_or_ne sd' sd with rfl | hne
    · rw [Function.update_self, hc]
    · rw [Function.update_of_ne hne]
  simp only [Net.post]
  split
  · next fs hfs =>
    refine ⟨_, _, rfl, fun sd' => hinq _ sd' rfl, fun sd' hsd => Function.update_of_ne hsd .., ?_, ?_⟩
    · rw [Function.update_self, hfs, List.tail_cons]
    · rw [hfs, List.head?_cons, if_pos rfl]
  · next hf =>
    refine ⟨_, _, rfl, fun sd' => hinq _ sd' rfl, fun sd' hsd => Function.update_of_ne hsd .., ?_, ?_⟩
    · rw [Function.update_self]
    · have hne : (net sd).sendFails.head? ≠ some true := by
        intro hhead
        obtain ⟨fs, hfs⟩ := List.head?_eq_some_iff.mp hhead
        exact hf fs hfs
      rw [if_neg hne]

theorem Net.tried_sendmsg (net : Net Sd) (sd : Sd) (type : MessageType) (msg : Bytes) :
    ∃ net' r, Net.run (claraSendmsg sd type msg) net = .done net' r ∧
      Net.Tried sd msg.length net net' r := by
  obtain ⟨net', r, hpost, ht⟩ := tried_post net sd (.msg type msg) msg.length
  refine ⟨net', r, ?_, ht⟩
  simp only [claraSendmsg, Net.run, NetProg.perform, Prog.run_perform, Net.exec, hpost]

theorem Net.tried_send (net : Net Sd) (sd : Sd) (msg : Bytes) :
    ∃ net' r, Net.run (claraSend sd msg) net = .done net' r ∧
      Net.Tried sd msg.length net net' r := by
  obtain ⟨net', r, hpost, ht⟩ := tried_post net sd (.data msg) msg.length
  refine ⟨net', r, ?_, ht⟩
  simp only [claraSend, Net.run, NetProg.perform, Prog.run_perform, Net.exec, hpost]

theorem tried_blockForwardSend (net : Net Sd) (sdOut : Sd) {buf : Bytes} (h : buf ≠ [])
    (n : ℕ) : ∃ net' r m, Net.run (blockForwardSend sdOut buf.length buf n) net =
        .done net' (r.isSome, m) ∧ Net.Tried sdOut buf.length net net' r := by
  obtain ⟨net', r, hsend, ht⟩ := net.tried_send sdOut buf
  cases buf with
  | nil => exact absurd rfl h
  | cons b buf =>
    have hr := ht.result
    rw [List.length_cons, blockForwardSend_cons, Net.run_bind, hsend, Outcome.bind_done]
    split_ifs at hr with hf
    · subst hr
      exact ⟨net', none, n, rfl, ht⟩
    · subst hr
      simp only [List.length_cons, List.drop_succ_cons, List.drop_length, blockForwardSend_nil,
        Net.run_pure]
      exact ⟨net', some (buf.length + 1), _, rfl, ht⟩

/-- What forwarding the rest of a block leaves, of which the records `ds` were still to come. -/
def Forwarded (sdIn sdOut : Sd) (ok : Prop) (ds : List Bytes) (fails : List Bool)
    (later : List Incoming) (net' : Net Sd) : Prop :=
  ok ∧ (net' sdIn).inq = later ∧ (net' sdOut).sendFails = fails ∨
    ¬ ok ∧ ∃ e es, (e :: es) <:+ ds ∧
      (net' sdIn).inq = Net.incoming ((e :: es).map .data) ++ later

private theorem forwarded_blockForwardLoop (hne : sdIn ≠ sdOut) (ds : List Bytes)
    (hds : ∀ d ∈ ds, d ≠ []) (fuel bs n : ℕ) (later : List Incoming)
    (hq : (net sdIn).inq = Net.incoming (ds.map .data) ++ later) (hfuel : ds.length ≤ fuel)
    (hbs : ∀ d ∈ ds, d.length ≤ bs) :
    ∃ net' m, Net.run (blockForwardLoop sdIn sdOut fuel bs ds.flatten.length n) net =
        .done net' m ∧
      Forwarded sdIn sdOut (Succeeds (net sdOut).sendFails (ds.length - 1)) ds
        ((net sdOut).sendFails.drop ds.length) later net' := by
  induction ds generalizing net fuel bs n with
  | nil =>
    rw [List.map_nil, Net.incoming_nil, List.nil_append] at hq
    refine ⟨net, n, ?_, .inl ⟨succeeds_zero _, hq, rfl⟩⟩
    rw [List.flatten_nil, List.length_nil]
    cases fuel <;> rfl
  | cons d ds ih =>
    obtain ⟨fuel, rfl⟩ : ∃ k, fuel = k + 1 := Nat.exists_eq_add_one.mpr (by
      rw [List.length_cons] at hfuel
      omega)
    have hd : d ≠ [] := hds d List.mem_cons_self
    have hpos : 0 < d.length := List.length_pos_iff.mpr hd
    have hflat : (d :: ds).flatten.length = d.length + ds.flatten.length := by
      rw [List.flatten_cons, List.length_append]
    have hfits : d.length ≤ min bs (d :: ds).flatten.length := by
      have hdbs := hbs d List.mem_cons_self
      omega
    rw [List.map_cons, Net.incoming_cons, List.cons_append] at hq
    rw [blockForwardLoop_of_pos (by omega), Net.run_bind, Net.run_claraRecv hq hfits,
      Outcome.bind_done]
    obtain ⟨net₁, hnet₁⟩ : ∃ x, x = net.withInq sdIn (Net.incoming (ds.map .data) ++ later) :=
      ⟨_, rfl⟩
    have hinq : (net₁ sdIn).inq = Net.incoming (ds.map .data) ++ later := by
      rw [hnet₁, Net.withInq_inq]
    have hfails : (net₁ sdOut).sendFails = (net sdOut).sendFails := by
      rw [hnet₁, Net.withInq_of_ne _ _ hne.symm]
    obtain ⟨net₂, r, m, hsend, ht⟩ := tried_blockForwardSend net₁ sdOut hd n
    rw [← hnet₁]
    simp only [Sent.record]
    rw [Net.run_bind, hsend, Outcome.bind_done]
    have hr := ht.result
    rw [hfails] at hr
    have hinq₂ : (net₂ sdIn).inq = Net.incoming (ds.map .data) ++ later := by rw [ht.inq, hinq]
    have htail : (net₂ sdOut).sendFails = (net sdOut).sendFails.tail := by rw [ht.fails, hfails]
    split_ifs at hr with hf
    · subst hr
      refine ⟨net₂, m, rfl, ?_⟩
      cases ds with
      | nil => exact .inl ⟨succeeds_zero _, by simpa using hinq₂, by simpa using htail⟩
      | cons e es =>
        refine .inr ⟨fun hs => ?_, e, es, List.suffix_cons .., hinq₂⟩
        exact (succeeds_succ.mp hs).1 hf
    · subst hr
      have hrest : (d :: ds).flatten.length - d.length = ds.flatten.length := by omega
      have hbs₂ : ∀ e ∈ ds, e.length ≤ min bs (d :: ds).flatten.length := by
        intro e he
        have hle := List.Sublist.length_le (List.sublist_flatten_of_mem he)
        have hebs := hbs e (List.mem_cons_of_mem _ he)
        omega
      simp only [Option.isSome_some, hrest]
      obtain ⟨net₃, k, hloop, hleft⟩ := ih (fun e he => hds e (List.mem_cons_of_mem _ he)) fuel
        (min bs (d :: ds).flatten.length) m hinq₂ (by rw [List.length_cons] at hfuel; omega) hbs₂
      refine ⟨net₃, k, hloop, ?_⟩
      rw [htail] at hleft
      have hok : Succeeds (net sdOut).sendFails ((d :: ds).length - 1) ↔
          Succeeds (net sdOut).sendFails.tail (ds.length - 1) := by
        cases ds with
        | nil => exact iff_of_true (succeeds_zero _) (succeeds_zero _)
        | cons e es => exact succeeds_succ.trans (and_iff_right hf)
      rcases hleft with ⟨hs, hin, hout⟩ | ⟨hs, e, es, hsuffix, hin⟩
      · refine .inl ⟨hok.mpr hs, hin, ?_⟩
        rw [hout, List.length_cons, ← List.drop_one, List.drop_drop, Nat.add_comm]
      · exact .inr ⟨fun h => hs (hok.mp h), e, es, hsuffix.trans (List.suffix_cons ..), hin⟩

/-- Forwarding a block leaves nothing of it if all of its sends but the last succeed, and some of
its data otherwise. -/
theorem forwarded_blockForward (hne : sdIn ≠ sdOut) {b : Bytes} (hb : b.length < 2 ^ 64)
    {fuel : ℕ} {later : List Incoming}
    (hq : (net sdIn).inq = Net.incoming (blockData b) ++ later)
    (hfuel : (blockData b).length ≤ fuel) :
    ∃ net' m, Net.run (blockForward sdIn sdOut fuel (UInt64.ofNat b.length)) net =
        .done net' m ∧
      Forwarded sdIn sdOut (Succeeds (net sdOut).sendFails (blockData b).length)
        (b.pieces blocksize) ((net sdOut).sendFails.drop (blockRecords b).length) later net' := by
  have hn : (UInt64.ofNat b.length).toNat = b.length := by
    rw [UInt64.toNat_ofNat', Nat.mod_eq_of_lt hb]
  obtain ⟨net₁, r, hsend, ht⟩ := net.tried_sendmsg sdOut Msg.block
    (Bytes.word (UInt64.ofNat b.length))
  have hlen : (blockData b).length = (b.pieces blocksize).length := by
    rw [blockData, List.length_map]
  have hlen' : (blockRecords b).length = (b.pieces blocksize).length + 1 := by
    rw [blockRecords, List.length_cons, hlen]
  have hinq : (net₁ sdIn).inq = Net.incoming ((b.pieces blocksize).map .data) ++ later := by
    rw [ht.inq, hq, blockData]
  rw [blockForward, Net.run_bind, hsend, Outcome.bind_done, hlen, hlen']
  rw [hlen] at hfuel
  have hr := ht.result
  have hfails := ht.fails
  split_ifs at hr with hf
  · subst hr
    refine ⟨net₁, 0, rfl, ?_⟩
    cases hpieces : b.pieces blocksize with
    | nil =>
      rw [hpieces] at hinq
      exact .inl ⟨succeeds_zero _, by simpa using hinq, by simpa using hfails⟩
    | cons e es =>
      rw [hpieces] at hinq
      exact .inr ⟨fun hs => (succeeds_succ.mp hs).1 hf, e, es, List.suffix_rfl, hinq⟩
  · subst hr
    have hflat : (b.pieces blocksize).flatten.length = b.length := by
      rw [List.flatten_pieces blocksize_pos]
    simp only [hn]
    obtain ⟨net₂, m, hloop, hleft⟩ := forwarded_blockForwardLoop hne (b.pieces blocksize)
      (fun d hd => List.ne_nil_of_length_pos (List.mem_pieces hd).1) fuel blocksize 0 later hinq
      hfuel (fun d hd => (List.mem_pieces hd).2)
    rw [hflat] at hloop
    refine ⟨net₂, m, hloop, ?_⟩
    rw [hfails] at hleft
    have hok : Succeeds (net sdOut).sendFails (b.pieces blocksize).length ↔
        Succeeds (net sdOut).sendFails.tail ((b.pieces blocksize).length - 1) := by
      cases b.pieces blocksize with
      | nil => exact iff_of_true (succeeds_zero _) (succeeds_zero _)
      | cons e es => exact succeeds_succ.trans (and_iff_right hf)
    rcases hleft with ⟨hs, hin, hout⟩ | ⟨hs, hdata⟩
    · refine .inl ⟨hok.mpr hs, hin, ?_⟩
      rw [hout, ← List.drop_one, List.drop_drop, Nat.add_comm]
    · exact .inr ⟨fun h => hs (hok.mp h), hdata⟩

def NetProg.Along {α : Type} (P : NetOp Sd → Net Sd → Prop) (p : NetProg Sd α) (net : Net Sd) :
    Prop :=
  Prog.Along (fun _ : Unit => Net.exec) () P p net

/-- The program ends behind the stream, and has received messages only where the stream has
them. -/
def Drains {α : Type} (rs : List Sent) (later : List Incoming) (sd : Sd) (p : NetProg Sd α)
    (net : Net Sd) : Prop :=
  Prog.Meets (fun _ : Unit => Net.exec) () (NetOp.ReadsMessages rs later sd)
    (fun net => (net sd).inq = later) p net

section
variable {α β : Type} {rs : List Sent} {later : List Incoming}

theorem drains_bind {p : NetProg Sd α} {f : α → NetProg Sd β} {a : α}
    (h : Net.run p net = .done net' a) : Drains rs later sd (p >>= f) net ↔
      p.Along (NetOp.ReadsMessages rs later sd) net ∧ Drains rs later sd (f a) net' :=
  Prog.meets_bind_done h

/-- A program that receives no message. -/
def NetProg.Quiet (p : NetProg Sd α) : Prop :=
  p.All fun o => ∀ net rs later sd, o.ReadsMessages rs later sd net

omit [DecidableEq Sd] in
private theorem quiet_claraRecv (len : ℕ) : (claraRecv sd len).Quiet :=
  Prog.all_perform.mpr fun _ _ _ _ => trivial

omit [DecidableEq Sd] in
theorem quiet_claraSendmsg (type : MessageType) (msg : Bytes) :
    (claraSendmsg sd type msg).Quiet :=
  Prog.all_perform.mpr fun _ _ _ _ => trivial

omit [DecidableEq Sd] in
private theorem quiet_claraSend (msg : Bytes) : (claraSend sd msg).Quiet :=
  Prog.all_perform.mpr fun _ _ _ _ => trivial

omit [DecidableEq Sd] in
private theorem quiet_spin : (NetProg.spin : NetProg Sd α).Quiet :=
  ⟨fun _ _ _ _ => trivial, nofun⟩

omit [DecidableEq Sd] in
private theorem quiet_blockForwardSend (fuel : ℕ) (ptr : Bytes) (n : ℕ) :
    (blockForwardSend sdOut fuel ptr n).Quiet := by
  induction fuel generalizing ptr n with
  | zero =>
    cases ptr with
    | nil => exact Prog.all_pure _
    | cons b ptr => exact quiet_spin
  | succ fuel ih =>
    cases ptr with
    | nil => exact Prog.all_pure _
    | cons b ptr =>
      rw [blockForwardSend_cons]
      apply Prog.All.bind (quiet_claraSend _)
      intro r
      cases r with
      | none => exact Prog.all_pure _
      | some ssz => exact ih _ _

omit [DecidableEq Sd] in
private theorem quiet_blockForwardLoop (fuel bs n m : ℕ) :
    (blockForwardLoop sdIn sdOut fuel bs n m).Quiet := by
  induction fuel generalizing bs n m with
  | zero =>
    cases n with
    | zero => exact Prog.all_pure _
    | succ n => exact quiet_spin
  | succ fuel ih =>
    rcases Nat.eq_zero_or_pos n with rfl | hpos
    · exact Prog.all_pure _
    · rw [blockForwardLoop_of_pos hpos]
      apply Prog.All.bind (quiet_claraRecv _)
      intro msg
      cases msg with
      | none => exact Prog.all_pure _
      | some buf =>
        apply Prog.All.bind (quiet_blockForwardSend _ _ _)
        rintro ⟨ok, forwarded⟩
        cases ok with
        | false => exact Prog.all_pure _
        | true => exact ih _ _ _

omit [DecidableEq Sd] in
theorem quiet_blockForward (fuel : ℕ) (length : UInt64) :
    (blockForward sdIn sdOut fuel length).Quiet := by
  rw [blockForward]
  apply Prog.All.bind (quiet_claraSendmsg _ _)
  intro r
  cases r with
  | none => exact Prog.all_pure _
  | some ssz => exact quiet_blockForwardLoop _ _ _ _

theorem NetProg.Quiet.along {p : NetProg Sd α} (h : p.Quiet) :
    p.Along (NetOp.ReadsMessages rs later sd) net :=
  Prog.All.along (fun _ net ho => ho net rs later sd) h net

theorem along_claraRecvmsg {len : ℕ} :
    (claraRecvmsg sd len).Along (NetOp.ReadsMessages rs later sd) net ↔
      net.AtMessage rs later sd := by
  rw [NetProg.Along, claraRecvmsg, NetProg.perform, Prog.along_perform, NetOp.ReadsMessages]
  exact ⟨fun h => h rfl, fun h _ => h⟩

omit [DecidableEq Sd] in
theorem Net.not_atMessage_of_data {d : Bytes} {rest : List Sent}
    (hsuffix : (.data d :: rest) <:+ rs)
    (hq : (net sd).inq = Net.incoming (.data d :: rest) ++ later) :
    ¬ net.AtMessage rs later sd := by
  rintro ⟨type, payload, rest', hsuffix', hq'⟩
  have hlen := congrArg List.length (hq.symm.trans hq')
  simp only [Net.incoming, List.length_append, List.length_map] at hlen
  have heq := (List.suffix_of_suffix_length_le hsuffix hsuffix' (by omega)).eq_of_length (by omega)
  cases heq

theorem not_drains_streamForwardLoop {fuel n : ℕ} {d : Bytes} {rest : List Sent}
    (hsuffix : (.data d :: rest) <:+ rs)
    (hq : (net sdIn).inq = Net.incoming (.data d :: rest) ++ later) :
    ¬ Drains rs later sdIn (streamForwardLoop sdIn sdOut fuel n) net := by
  rintro ⟨hends, halong⟩
  cases fuel with
  | zero => exact hends
  | succ fuel =>
    rw [streamForwardLoop, Prog.along_bind] at halong
    exact Net.not_atMessage_of_data hsuffix hq (along_claraRecvmsg.mp halong.1)

/-- The loop reaches the end of the stream exactly if in every block only the last send fails. -/
theorem drains_streamForwardLoop_iff (hne : sdIn ≠ sdOut) (blks : List Bytes)
    (hblks : ∀ b ∈ blks, b.length < 2 ^ 64) (fuel n : ℕ)
    (hrs : (blks.flatMap blockRecords ++ [.msg Msg.streamEnd []]) <:+ rs)
    (hq : (net sdIn).inq =
      Net.incoming (blks.flatMap blockRecords ++ [.msg Msg.streamEnd []]) ++ later)
    (hfuel : (blks.flatMap blockRecords).length < fuel) :
    Drains rs later sdIn (streamForwardLoop sdIn sdOut fuel n) net ↔
      Passable (net sdOut).sendFails blks := by
  induction blks generalizing net fuel n with
  | nil =>
    obtain ⟨fuel, rfl⟩ : ∃ k, fuel = k + 1 := Nat.exists_eq_add_one.mpr (by omega)
    have hat : net.AtMessage rs later sdIn := ⟨_, _, _, hrs, hq⟩
    rw [List.flatMap_nil, List.nil_append, Net.incoming_cons, Net.incoming_nil, List.cons_append,
      List.nil_append] at hq
    obtain ⟨net₂, r, hsend, ht⟩ :=
      (net.withInq sdIn later).tried_sendmsg sdOut Msg.streamEnd []
    rw [streamForwardLoop, drains_bind (Net.run_claraRecvmsg hq (Nat.zero_le _))]
    simp only [List.length_nil, and_self, if_true]
    rw [drains_bind hsend]
    refine iff_of_true
      ⟨along_claraRecvmsg.mpr hat, (quiet_claraSendmsg _ _).along, ?_, trivial⟩ trivial
    exact (ht.inq sdIn).trans (Net.withInq_inq ..)
  | cons b blks ih =>
    obtain ⟨fuel, rfl⟩ : ∃ k, fuel = k + 1 := Nat.exists_eq_add_one.mpr (by omega)
    rw [List.flatMap_cons, List.append_assoc] at hrs hq
    have hat : net.AtMessage rs later sdIn := ⟨_, _, _, hrs, hq⟩
    have hlater : (blks.flatMap blockRecords ++ [.msg Msg.streamEnd []]) <:+ rs :=
      (List.suffix_append _ _).trans hrs
    rw [List.flatMap_cons, List.length_append, blockRecords, List.length_cons] at hfuel
    rw [Net.incoming_append, blockRecords, Net.incoming_cons, List.cons_append, List.cons_append,
      List.append_assoc] at hq
    have hend : Msg.block ≠ Msg.streamEnd := by decide
    rw [streamForwardLoop,
      drains_bind (Net.run_claraRecvmsg hq (by rw [blockParams, Bytes.length_word]))]
    simp only [hend, false_and, if_false, blockParams, Bytes.length_word, and_self, if_true,
      Bytes.wordAt_word]
    have hblock : (blockData b).length ≤ fuel := by omega
    obtain ⟨net₁, m, hforward, hleft⟩ := forwarded_blockForward hne
      (hblks b List.mem_cons_self) (Net.withInq_inq net sdIn _) hblock
    rw [drains_bind hforward, Net.withInq_of_ne _ _ hne.symm] at *
    rw [and_iff_right (along_claraRecvmsg.mpr hat), and_iff_right (quiet_blockForward _ _).along,
      Passable]
    rcases hleft with ⟨hs, hin, hout⟩ | ⟨hs, d, ds, hsuffix, hin⟩
    · rw [and_iff_right hs, ih (fun b hb => hblks b (List.mem_cons_of_mem _ hb)) fuel _ hlater hin
        (by omega), hout]
    · refine iff_of_false ?_ fun h => hs h.1
      rw [← List.append_assoc, ← Net.incoming_append, List.map_cons, List.cons_append] at hin
      refine not_drains_streamForwardLoop (List.IsSuffix.trans ?_ hrs) hin
      obtain ⟨pre, hpre⟩ := hsuffix
      refine ⟨.msg Msg.block (blockParams b.length) :: pre.map .data, ?_⟩
      rw [blockRecords, blockData, ← hpre, List.map_append, List.map_cons, List.cons_append,
        List.cons_append, List.append_assoc, List.cons_append]

/-- The whole stream is taken exactly if its start can be sent and it is passable from there. -/
theorem drains_streamForward_iff (hne : sdIn ≠ sdOut) {stp : StreamOptions} {blks : List Bytes}
    (hblks : ∀ b ∈ blks, b.length < 2 ^ 64) {fuel : ℕ}
    (hq : (net sdIn).inq = Net.incoming (streamOf stp blks) ++ later)
    (hfuel : (streamOf stp blks).length ≤ fuel) :
    Drains (streamOf stp blks) later sdIn (streamForward sdIn sdOut fuel) net ↔
      (net sdOut).sendFails.head? ≠ some true ∧ Passable (net sdOut).sendFails.tail blks := by
  have hat : net.AtMessage (streamOf stp blks) later sdIn := ⟨_, _, _, List.suffix_rfl, hq⟩
  have hlater : (blks.flatMap blockRecords ++ [.msg Msg.streamEnd []]) <:+ streamOf stp blks :=
    List.suffix_cons ..
  have hlen : (streamOf stp blks).length = (blks.flatMap blockRecords).length + 2 := by
    simp [streamOf]
  rw [streamOf, Net.incoming_cons, List.cons_append] at hq
  rw [streamForward, streamForwardWith,
    drains_bind (Net.run_claraRecvmsg hq (by rw [StreamOptions.length_bytes])),
    and_iff_right (along_claraRecvmsg.mpr hat)]
  simp only [streamForwardWith.streamForwardFrom, Bytes.whole, StreamOptions.length_bytes, if_true]
  obtain ⟨net₁, r, hsend, ht⟩ := (net.withInq sdIn (Net.incoming (blks.flatMap blockRecords ++
    [.msg Msg.streamEnd []]) ++ later)).tried_sendmsg sdOut Msg.streamStart stp.bytes
  have hin : (net₁ sdIn).inq = Net.incoming (blks.flatMap blockRecords ++
      [.msg Msg.streamEnd []]) ++ later := by rw [ht.inq, Net.withInq_inq]
  have hfails := ht.fails
  have hr := ht.result
  rw [drains_bind hsend, and_iff_right (quiet_claraSendmsg _ _).along]
  rw [Net.withInq_of_ne _ _ hne.symm] at hfails hr
  split_ifs at hr with hf
  · subst hr
    refine iff_of_false ?_ fun h => h.1 hf
    rintro ⟨hends, -⟩
    have hlength := congrArg List.length (hin.symm.trans hends)
    simp only [Net.incoming, List.length_append, List.length_map, List.length_cons] at hlength
    omega
  · subst hr
    rw [and_iff_right hf]
    simp only
    rw [drains_streamForwardLoop_iff hne blks hblks fuel 0 hlater hin (by omega), hfails]

end

end

end Clara
