import Clara.Common.Expected

/-! Where `stream_forward` aborts: it meets a record where the next block or the end of the stream
is due, and it is neither. -/
namespace Clara

open Conc

namespace Incoming

/-- `clara_recvmsg` with a buffer of `len` bytes does not survive it. -/
def Kills (len : ℕ) : Incoming → Prop
  | .record b => b.length < 2
  | .notification b => len < b.length ∧ b.length ≤ 2 + len
  | .failure => False

def left (len : ℕ) : Incoming → List Incoming
  | .record b => if b.length ≤ len then [] else [.record (b.drop len)]
  | .notification b => if b.length ≤ len then [] else [.notification (b.drop len)]
  | .failure => []

/-- What `clara_recv` stores of it in a buffer of `len` bytes. -/
def bytes (len : ℕ) : Incoming → Option Bytes
  | .record b | .notification b => if b.length ≤ len then some b else none
  | .failure => none

theorem left_cons {len : ℕ} {i j : Incoming} {js : List Incoming} (h : i.left len = j :: js) :
    js = [] := by
  cases i <;> simp only [left] at h
  · split_ifs at h
    exact (List.cons.inj h).2.symm
  · split_ifs at h
    exact (List.cons.inj h).2.symm
  · cases h

theorem left_of_bytes {len : ℕ} {i : Incoming} {b : Bytes} (h : i.bytes len = some b) :
    i.left len = [] := by
  cases i <;> simp only [bytes] at h
  · split_ifs at h with hlen
    exact if_pos hlen
  · split_ifs at h with hlen
    exact if_pos hlen
  · cases h

theorem left_of_stored {len : ℕ} {i : Incoming} {b : Bytes} (h : i.stored len = some b) :
    i.left (2 + len) = [] := by
  cases i <;> simp only [stored] at h
  · split_ifs at h with hlen
    exact if_pos hlen.2
  · split_ifs at h with hlen
    exact if_pos (by omega)
  · cases h

end Incoming

/-- A response of eight bytes, or none. -/
def Incoming.Answers (i : Incoming) : Prop :=
  ¬ i.Kills 8 ∧ ∀ b, i.stored 8 = some b → b.length = 8

inductive Due
  /-- It ends the call: the end of the stream, or a receive that fails. -/
  | last
  | block (length : UInt64)
  | unexpected

def Incoming.due : Incoming → Due
  | .failure => .last
  | .notification b => if 10 < b.length then .last else .unexpected
  | .record b =>
    if 10 < b.length then .last
    else if b.length < 2 then .unexpected
    else if UInt16.ofNat (Bytes.toNat (b.take 2)) = Msg.streamEnd ∧ b.length = 2 then .last
    else if UInt16.ofNat (Bytes.toNat (b.take 2)) = Msg.block ∧ b.length = 10 then
      .block (Bytes.wordAt (b.drop 2) 0)
    else .unexpected

def Incoming.Leads (next : ℕ → Prop) (i : Incoming) : Prop :=
  match i.due with
  | .last => False
  | .block length => next length.toNat
  | .unexpected => True

/-- `stream_forward` comes upon a record that it does not expect: `n` bytes of a block are to come
before the next header, and the next sends fail as `fails` says. A block whose header or data cannot
be sent is given up, and what there is of its data is taken for headers. -/
def Astray : (n : ℕ) → (fails : List Bool) → List Incoming → Prop
  | _, _, [] => False
  | 0, fails, i :: q =>
    i.Leads fun n => Astray (if fails.head? = some true then 0 else n) fails.tail q
  | n + 1, fails, i :: q =>
    match i.bytes (min blocksize (n + 1)) with
    | none =>
      match i.left (min blocksize (n + 1)) with
      | [] => Astray 0 fails q
      | j :: _ => j.Leads fun n => Astray (if fails.head? = some true then 0 else n) fails.tail q
    | some [] => Astray (n + 1) fails q
    | some b => Astray (if fails.head? = some true then 0 else n + 1 - b.length) fails.tail q

/-- The same from the start of the stream. -/
def StartsAstray (fails : List Bool) : List Incoming → Prop
  | [] => False
  | i :: q => i.Kills 16 ∨
    (i.stored 16).isSome ∧ fails.head? ≠ some true ∧ Astray 0 fails.tail q

namespace Net
variable {Sd : Type} [DecidableEq Sd] {net : Net Sd} {sd : Sd} {i : Incoming}
  {later : List Incoming}

theorem run_claraRecv_cons (hq : (net sd).inq = i :: later) (len : ℕ) :
    Net.run (claraRecv sd len) net =
      .done (net.withInq sd (i.left len ++ later)) (i.bytes len) := by
  rw [claraRecv, NetProg.perform, Net.run, Prog.run_perform, exec, take, hq]
  cases i with
  | failure => rfl
  | record b =>
    simp only [Incoming.left, Incoming.bytes]
    split_ifs <;> rfl
  | notification b =>
    simp only [Incoming.left, Incoming.bytes]
    split_ifs <;> rfl

theorem aborts_claraRecvmsg (hq : (net sd).inq = i :: later) {len : ℕ} :
    (Net.run (claraRecvmsg sd len) net).Aborts ↔ i.Kills len := by
  rw [claraRecvmsg, NetProg.perform, Net.run, Prog.run_perform, exec, take, hq]
  cases i with
  | failure => exact Iff.rfl
  | record b =>
    simp only [Incoming.Kills]
    split_ifs with hlen
    · rw [Outcome.bind_done]
      simp only
      split_ifs with htype
      · exact iff_of_false id (by omega)
      · exact iff_of_true trivial (by omega)
    · exact iff_of_false id (by omega)
  | notification b =>
    simp only [Incoming.Kills]
    split_ifs with hlen
    · rw [Outcome.bind_done]
      simp only
      split_ifs with hb
      · exact iff_of_false id (by omega)
      · exact iff_of_true trivial (by omega)
    · exact iff_of_false id (by omega)

theorem run_claraRecvmsg_cons (hq : (net sd).inq = i :: later) {len : ℕ} (h : ¬ i.Kills len) :
    ∃ r, Net.run (claraRecvmsg sd len) net =
      .done (net.withInq sd (i.left (2 + len) ++ later)) r ∧ r.stored = i.stored len := by
  rw [claraRecvmsg, NetProg.perform, Net.run, Prog.run_perform, exec, take, hq]
  cases i with
  | failure => exact ⟨_, rfl, rfl⟩
  | record b =>
    rw [Incoming.Kills] at h
    simp only [Incoming.left, Incoming.stored]
    split_ifs with hlen hboth hboth
    · rw [Outcome.bind_done]
      simp only [if_pos hboth.1]
      exact ⟨_, rfl, rfl⟩
    · omega
    · omega
    · exact ⟨_, rfl, rfl⟩
  | notification b =>
    rw [Incoming.Kills] at h
    simp only [Incoming.left, Incoming.stored]
    split_ifs with hlen hb hb
    · rw [Outcome.bind_done]
      simp only [if_pos hb]
      exact ⟨_, rfl, rfl⟩
    · omega
    · omega
    · exact ⟨_, rfl, rfl⟩

theorem run_claraRecvmsg_nil (hq : (net sd).inq = []) (len : ℕ) :
    Net.run (claraRecvmsg sd len) net = .blocked := by
  rw [claraRecvmsg, NetProg.perform, Net.run, Prog.run_perform, exec, take, hq]
  rfl

theorem not_aborts_recvmsg_nil {α : Type} (hq : (net sd).inq = []) (len : ℕ)
    (f : Received → NetProg Sd α) : ¬ (Net.run (claraRecvmsg sd len >>= f) net).Aborts := by
  rw [Net.run_bind, run_claraRecvmsg_nil hq]
  exact id

theorem aborts_recvmsg_killed {α : Type} (hq : (net sd).inq = i :: later) {len : ℕ}
    (h : i.Kills len) (f : Received → NetProg Sd α) :
    (Net.run (claraRecvmsg sd len >>= f) net).Aborts := by
  rw [Net.run_bind]
  exact ((aborts_claraRecvmsg hq).mpr h).bind _

theorem run_recvWord_nil (hq : (net sd).inq = []) : Net.run (recvWord sd) net = .blocked := by
  rw [recvWord, Net.run_bind, run_claraRecvmsg_nil hq]
  rfl

theorem run_recvWord_cons (hq : (net sd).inq = i :: later) (h : ¬ i.Kills 8) :
    Net.run (recvWord sd) net = .done (net.withInq sd (i.left 10 ++ later))
      ((i.stored 8).bind fun b => if b.length = 8 then some (b.wordAt 0) else none) := by
  obtain ⟨r, hrecv, hr⟩ := run_claraRecvmsg_cons hq h
  rw [recvWord, Net.run_bind, hrecv, Outcome.bind_done, hr]
  cases i.stored 8 with
  | none => rfl
  | some b =>
    simp only [Option.bind_some]
    split_ifs <;> rfl

end Net

section
variable {Sd : Type} [DecidableEq Sd] {net : Net Sd} {sdIn sdOut : Sd} {q : List Incoming}

theorem run_streamForwardLoop_cons {i : Incoming} (hq : (net sdIn).inq = i :: q) (fuel n : ℕ) :
    match i.due with
    | .last => ¬ (Net.run (streamForwardLoop sdIn sdOut (fuel + 1) n) net).Aborts
    | .block length => Net.run (streamForwardLoop sdIn sdOut (fuel + 1) n) net =
        Net.run (blockForward sdIn sdOut fuel length >>= fun k =>
          streamForwardLoop sdIn sdOut fuel (n + k)) (net.withInq sdIn q)
    | .unexpected => (Net.run (streamForwardLoop sdIn sdOut (fuel + 1) n) net).Aborts := by
  rw [streamForwardLoop, Net.run_bind, claraRecvmsg, NetProg.perform, Net.run, Prog.run_perform,
    Net.exec, Net.take, hq]
  cases i with
  | failure => exact id
  | notification b =>
    simp only [Incoming.due]
    by_cases hlong : 10 < b.length
    · rw [if_pos hlong, if_neg (Nat.not_le.mpr hlong)]
      exact id
    · rw [if_neg hlong, if_pos (Nat.not_lt.mp hlong), Outcome.bind_done]
      simp only
      split_ifs <;> trivial
  | record b =>
    simp only [Incoming.due]
    by_cases hlong : 10 < b.length
    · rw [if_pos hlong, if_neg (Nat.not_le.mpr hlong)]
      exact id
    rw [if_neg hlong, if_pos (Nat.not_lt.mp hlong), Outcome.bind_done]
    by_cases hshort : b.length < 2
    · rw [if_pos hshort]
      simp only [if_neg (Nat.not_le.mpr hshort)]
      trivial
    rw [if_neg hshort]
    have hend : (b.drop 2).length = 0 ↔ b.length = 2 := by
      rw [List.length_drop]
      omega
    have hblock : (b.drop 2).length = 8 ↔ b.length = 10 := by
      rw [List.length_drop]
      omega
    simp only [if_pos (Nat.not_lt.mp hshort), Outcome.bind_done, hend, hblock]
    split_ifs
    · obtain ⟨net', r, hsend, -⟩ := (net.withInq sdIn q).tried_sendmsg sdOut
        (UInt16.ofNat (Bytes.toNat (b.take 2))) []
      change ¬ (Net.run _ (net.withInq sdIn q)).Aborts
      rw [Net.run_bind, hsend]
      exact id
    · rfl
    · trivial

omit [DecidableEq Sd] in
private theorem blockForwardLoop_zero (fuel bs m : ℕ) :
    blockForwardLoop sdIn sdOut fuel bs 0 m = pure m := by
  cases fuel <;> rfl

/-- The outcome is a fault only if `p` holds, and with enough fuel exactly then. -/
private def AbortsAs (o : Outcome (Net Sd) NetFault ℕ) (enough p : Prop) : Prop :=
  (o.Aborts → p) ∧ (enough → p → o.Aborts)

private def AbortsBehind (sdIn sdOut : Sd) (q : List Incoming) : Prop :=
  ∀ (net : Net Sd) (rem fuel fuel' bs m n : ℕ), (net sdIn).inq = q →
    min bs rem = min blocksize rem →
    AbortsAs (Net.run (blockForwardLoop sdIn sdOut fuel' bs rem m >>= fun k =>
        streamForwardLoop sdIn sdOut fuel (n + k)) net)
      (q.length ≤ fuel ∧ q.length ≤ fuel') (Astray rem (net sdOut).sendFails q)

/-- The block is given up, and the loop of `stream_forward` goes on. -/
private theorem AbortsBehind.given_up (h : AbortsBehind sdIn sdOut q) (hq : (net sdIn).inq = q)
    (fuel k n : ℕ) :
    AbortsAs (Net.run (pure k >>= fun k => streamForwardLoop sdIn sdOut fuel (n + k)) net)
      (q.length ≤ fuel) (Astray 0 (net sdOut).sendFails q) := by
  have hrest := h net 0 fuel fuel blocksize k n hq rfl
  rw [blockForwardLoop_zero] at hrest
  exact ⟨hrest.1, fun he => hrest.2 ⟨he, he⟩⟩

private theorem AbortsBehind.header (h : AbortsBehind sdIn sdOut q) (hne : sdIn ≠ sdOut)
    {i : Incoming} (hq : (net sdIn).inq = i :: q) (fuel n : ℕ) :
    AbortsAs (Net.run (streamForwardLoop sdIn sdOut fuel n) net) (q.length + 1 ≤ fuel)
      (i.Leads fun rem => Astray (if (net sdOut).sendFails.head? = some true then 0 else rem)
        (net sdOut).sendFails.tail q) := by
  cases fuel with
  | zero => exact ⟨nofun, nofun⟩
  | succ fuel =>
    have hrun := @run_streamForwardLoop_cons _ _ net _ sdOut _ _ hq fuel n
    rw [Incoming.Leads]
    cases hi : i.due with
    | last =>
      rw [hi] at hrun
      exact ⟨fun ha => hrun ha, fun _ => False.elim⟩
    | unexpected =>
      rw [hi] at hrun
      exact ⟨fun _ => trivial, fun _ _ => hrun⟩
    | block length =>
      rw [hi] at hrun
      simp only at hrun ⊢
      obtain ⟨net', r, hsend, ht⟩ := (net.withInq sdIn q).tried_sendmsg sdOut Msg.block
        (Bytes.word length)
      have hinq : (net' sdIn).inq = q := by rw [ht.inq, Net.withInq_inq]
      have hr := ht.result
      have hfails := ht.fails
      rw [Net.withInq_of_ne _ _ hne.symm] at hr hfails
      rw [hrun, Net.run_bind, blockForward, Net.run_bind, hsend, Outcome.bind_done, ← Net.run_bind,
        ← hfails]
      split_ifs at hr with hf
      · subst hr
        rw [if_pos hf]
        have hrest := h.given_up hinq fuel 0 n
        exact ⟨hrest.1, fun he => hrest.2 (Nat.le_of_succ_le_succ he)⟩
      · subst hr
        rw [if_neg hf]
        have hrest := h net' length.toNat fuel fuel blocksize 0 n hinq rfl
        exact ⟨hrest.1, fun he => hrest.2 ⟨by omega, by omega⟩⟩

private theorem abortsBehind_nil : AbortsBehind sdIn sdOut [] := by
  intro net rem fuel fuel' bs m n hq _
  refine ⟨fun ha => ?_, fun _ => False.elim⟩
  have hwait : ∀ k, ¬ (Net.run (streamForwardLoop sdIn sdOut fuel k) net).Aborts := by
    intro k
    cases fuel with
    | zero => exact id
    | succ fuel => exact Net.not_aborts_recvmsg_nil hq 8 _
  rcases Nat.eq_zero_or_pos rem with rfl | hpos
  · rw [blockForwardLoop_zero] at ha
    exact absurd ha (hwait (n + m))
  cases fuel' with
  | zero =>
    obtain ⟨rem, rfl⟩ : ∃ k, rem = k + 1 := Nat.exists_eq_add_one.mpr hpos
    exact ha
  | succ fuel' =>
    rw [blockForwardLoop_of_pos hpos, Net.run_bind, Net.run_bind, claraRecv, NetProg.perform,
      Net.run, Prog.run_perform, Net.exec, Net.take, hq] at ha
    exact ha

/-- By induction on what waits: between blocks the next record decides, and inside a block it takes
something off the rest of the block, or the block is given up. -/
private theorem abortsBehind (hne : sdIn ≠ sdOut) (q : List Incoming) :
    AbortsBehind sdIn sdOut q := by
  induction q with
  | nil => exact abortsBehind_nil
  | cons i q ih =>
    intro net rem fuel fuel' bs m n hq hbs
    rcases Nat.eq_zero_or_pos rem with rfl | hpos
    · rw [blockForwardLoop_zero]
      have hheader := AbortsBehind.header ih hne hq fuel (n + m)
      exact ⟨hheader.1, fun he => hheader.2 he.1⟩
    obtain ⟨rem, rfl⟩ : ∃ k, rem = k + 1 := Nat.exists_eq_add_one.mpr hpos
    cases fuel' with
    | zero => exact ⟨False.elim, fun he => absurd he.2 (by simp)⟩
    | succ fuel' =>
      rw [blockForwardLoop_of_pos hpos, Net.run_bind, Net.run_bind, Net.run_claraRecv_cons hq,
        Outcome.bind_done, hbs, ← Net.run_bind, Astray]
      obtain ⟨net₁, hnet₁⟩ : ∃ x, x = net.withInq sdIn
        (i.left (min blocksize (rem + 1)) ++ q) := ⟨_, rfl⟩
      have hinq : (net₁ sdIn).inq = i.left (min blocksize (rem + 1)) ++ q := by
        rw [hnet₁, Net.withInq_inq]
      have hfails : (net₁ sdOut).sendFails = (net sdOut).sendFails := by
        rw [hnet₁, Net.withInq_of_ne _ _ hne.symm]
      rw [← hnet₁, ← hfails]
      cases hbytes : i.bytes (min blocksize (rem + 1)) with
      | none =>
        cases hleft : i.left (min blocksize (rem + 1)) with
        | nil =>
          rw [hleft, List.nil_append] at hinq
          have hrest := AbortsBehind.given_up ih hinq fuel m n
          exact ⟨hrest.1, fun he => hrest.2 (Nat.le_of_succ_le he.1)⟩
        | cons j js =>
          obtain rfl := Incoming.left_cons hleft
          rw [hleft] at hinq
          have hheader := AbortsBehind.header ih hne hinq fuel (n + m)
          exact ⟨hheader.1, fun he => hheader.2 he.1⟩
      | some b =>
        rw [Incoming.left_of_bytes hbytes, List.nil_append] at hinq
        cases b with
        | nil =>
          have hbs' : min (min blocksize (rem + 1)) (rem + 1) = min blocksize (rem + 1) := by omega
          have hrest := ih net₁ (rem + 1) fuel fuel' (min blocksize (rem + 1)) m n hinq hbs'
          exact ⟨hrest.1, fun he => hrest.2 ⟨Nat.le_of_succ_le he.1, Nat.le_of_succ_le_succ he.2⟩⟩
        | cons c b =>
          obtain ⟨net₂, r, k, hsend, ht⟩ := tried_blockForwardSend net₁ sdOut
            (List.cons_ne_nil c b) m
          have hinq₂ : (net₂ sdIn).inq = q := by rw [ht.inq, hinq]
          have hr := ht.result
          rw [Net.run_bind]
          simp only
          rw [Net.run_bind, hsend, Outcome.bind_done, ← Net.run_bind, ← ht.fails]
          split_ifs at hr with hf
          · subst hr
            rw [if_pos hf]
            have hrest := AbortsBehind.given_up ih hinq₂ fuel k n
            exact ⟨hrest.1, fun he => hrest.2 (Nat.le_of_succ_le he.1)⟩
          · subst hr
            rw [if_neg hf]
            have hbs' : min (min blocksize (rem + 1)) (rem + 1 - (c :: b).length) =
                min blocksize (rem + 1 - (c :: b).length) := by omega
            have hrest := ih net₂ (rem + 1 - (c :: b).length) fuel fuel'
              (min blocksize (rem + 1)) k n hinq₂ hbs'
            exact ⟨hrest.1,
              fun he => hrest.2 ⟨Nat.le_of_succ_le he.1, Nat.le_of_succ_le_succ he.2⟩⟩

theorem aborts_streamForwardOver_iff (hne : sdIn ≠ sdOut) (junk : Bytes) :
    (∃ fuel, (Net.run (streamForwardOver junk sdIn sdOut fuel) net).Aborts) ↔
      StartsAstray (net sdOut).sendFails (net sdIn).inq := by
  cases hq : (net sdIn).inq with
  | nil =>
    refine iff_of_false ?_ id
    rintro ⟨fuel, ha⟩
    exact Net.not_aborts_recvmsg_nil hq 16 _ ha
  | cons i q =>
    rw [StartsAstray]
    by_cases hkills : i.Kills 16
    · exact iff_of_true ⟨0, Net.aborts_recvmsg_killed hq hkills _⟩ (.inl hkills)
    rw [or_iff_right hkills]
    obtain ⟨r, hrecv, hstored⟩ := Net.run_claraRecvmsg_cons hq hkills
    simp only [streamForwardOver, streamForwardWith, Net.run_bind, hrecv, Outcome.bind_done]
    rw [← hstored]
    obtain ⟨net₁, hnet₁⟩ : ∃ x, x = net.withInq sdIn (i.left (2 + 16) ++ q) := ⟨_, rfl⟩
    have hfails : (net₁ sdOut).sendFails = (net sdOut).sendFails := by
      rw [hnet₁, Net.withInq_of_ne _ _ hne.symm]
    have hfrom : ∀ type b, r.stored = some b →
        ((∃ fuel, (Net.run (streamForwardWith.streamForwardFrom
          (fun b => some (Bytes.over b junk)) sdIn sdOut fuel type b) net₁).Aborts) ↔
        (net sdOut).sendFails.head? ≠ some true ∧ Astray 0 (net sdOut).sendFails.tail q) := by
      intro type b hb
      have hinq : (net₁ sdIn).inq = q := by
        rw [hnet₁, Net.withInq_inq, Incoming.left_of_stored (hstored.symm.trans hb),
          List.nil_append]
      obtain ⟨net₂, r₂, hsend, ht⟩ := net₁.tried_sendmsg sdOut type (Bytes.over b junk)
      have hr := ht.result
      simp only [streamForwardWith.streamForwardFrom, Net.run_bind, hsend, Outcome.bind_done]
      rw [← hfails, ← ht.fails]
      split_ifs at hr with hf
      · subst hr
        exact iff_of_false (fun h => h.elim fun _ ha => ha) fun h => h.1 hf
      · subst hr
        have hloop : ∀ fuel, AbortsAs (Net.run (streamForwardLoop sdIn sdOut fuel 0) net₂)
            (q.length ≤ fuel ∧ q.length ≤ fuel) (Astray 0 (net₂ sdOut).sendFails q) := by
          intro fuel
          have hrest := abortsBehind hne q net₂ 0 fuel fuel blocksize 0 0
            (by rw [ht.inq, hinq]) rfl
          rwa [blockForwardLoop_zero] at hrest
        rw [and_iff_right hf]
        exact ⟨fun h => h.elim fun fuel ha => (hloop fuel).1 ha,
          fun h => ⟨q.length, (hloop q.length).2 ⟨le_rfl, le_rfl⟩ h⟩⟩
    rw [← hnet₁]
    cases r with
    | failed => exact iff_of_false (fun h => h.elim fun _ ha => ha) fun h => Bool.noConfusion h.1
    | notification b => exact (hfrom _ b rfl).trans (and_iff_right rfl).symm
    | message type b => exact (hfrom type b rfl).trans (and_iff_right rfl).symm

theorem aborts_passingOn_iff (hne : sdIn ≠ sdOut) (junk : Bytes)
    (g : Received → MessageType × Bytes) :
    (∃ fuel, (Net.run (claraRecvmsg sdIn 8 >>= fun r =>
        claraSendmsg sdOut (g r).1 (g r).2 >>= fun _ =>
          streamForwardOver junk sdIn sdOut fuel) net).Aborts) ↔
      ∃ i later, (net sdIn).inq = i :: later ∧
        (i.Kills 8 ∨ StartsAstray (net sdOut).sendFails.tail (i.left 10 ++ later)) := by
  cases hq : (net sdIn).inq with
  | nil =>
    refine iff_of_false ?_ fun ⟨i, later, h, _⟩ => List.cons_ne_nil i later h.symm
    rintro ⟨fuel, ha⟩
    exact Net.not_aborts_recvmsg_nil hq 8 _ ha
  | cons i q =>
    have hcons : (∃ i' later, i :: q = i' :: later ∧
        (i'.Kills 8 ∨ StartsAstray (net sdOut).sendFails.tail (i'.left 10 ++ later))) ↔
          i.Kills 8 ∨ StartsAstray (net sdOut).sendFails.tail (i.left 10 ++ q) := by
      refine ⟨?_, fun h => ⟨i, q, rfl, h⟩⟩
      rintro ⟨i', later, heq, h⟩
      obtain ⟨rfl, rfl⟩ := List.cons.inj heq
      exact h
    rw [hcons]
    by_cases hkills : i.Kills 8
    · exact iff_of_true ⟨0, Net.aborts_recvmsg_killed hq hkills _⟩ (.inl hkills)
    rw [or_iff_right hkills]
    obtain ⟨r, hrecv, -⟩ := Net.run_claraRecvmsg_cons hq hkills
    obtain ⟨net₁, hnet₁⟩ : ∃ x, x = net.withInq sdIn (i.left (2 + 8) ++ q) := ⟨_, rfl⟩
    obtain ⟨net₂, r₂, hsend, ht⟩ := net₁.tried_sendmsg sdOut (g r).1 (g r).2
    have hinq : (net₂ sdIn).inq = i.left 10 ++ q := by rw [ht.inq, hnet₁, Net.withInq_inq]
    have hfails : (net₂ sdOut).sendFails = (net sdOut).sendFails.tail := by
      rw [ht.fails, hnet₁, Net.withInq_of_ne _ _ hne.symm]
    simp only [Net.run_bind, hrecv, Outcome.bind_done, ← hnet₁, hsend]
    rw [← hinq, ← hfails]
    exact aborts_streamForwardOver_iff hne junk

end

end Clara
