/-
The result of a session can be collected once. Its holder may ask at any time,
and any number of times, whether the job has ended, and may ask for the result
any number of times while it runs. The first time the result is asked for
after the end, it is told and taken along: whoever asks for it again, or waits
for the session, fails.

What is told is compared with what is the case by then, which depends on the
calls so far alone: how much time has passed, and when a held job was told to
end.
-/
import Mathlib
import StreamServer.Session.Holder

namespace StreamServer.Session

variable {patience : Nat} {id : SessionId} {job : Option (Instant × Ending)} {ending : Ending}
  {calls before more : List Call} {call : Call} {h : Holder}

/-! ## What is the case after some calls -/

/-- Time that passes with a call. -/
def Call.lasts : Call → Nat
  | .advance ms => ms
  | _ => 0

/-- The time after these calls, if the session has not been waited for. -/
def timeAfter (calls : List Call) : Instant := (calls.map Call.lasts).sum

/-- How a held job ends that is told so at `now`. -/
def Call.ends (now : Instant) : Call → Option (Instant × Ending)
  | .release code => some (now, .exited code)
  | _ => none

/-- When a held job is first told to end, and how it ends then. -/
def toldToEnd : Instant → List Call → Option (Instant × Ending)
  | _, [] => none
  | now, call :: calls => (call.ends now).or (toldToEnd (now + call.lasts) calls)

/-- When and how the job ends, as far as these calls settle it. -/
def fate (job : Option (Instant × Ending)) (calls : List Call) : Option (Instant × Ending) :=
  job.or (toldToEnd 0 calls)

/-- How the job has ended by the time after these calls; `none` while it runs. -/
def endedAs (job : Option (Instant × Ending)) (calls : List Call) : Option Ending :=
  ((fate job calls).filter (·.1 ≤ timeAfter calls)).map (·.2)

/-- What is to be told after the calls `before`. Waiting is given up after `patience`. -/
def truth (patience : Nat) (id : SessionId) (job : Option (Instant × Ending))
    (before : List Call) : Call → Reply
  | .advance _ => .done
  | .release _ => .truth (fate job before).isNone
  | .id => .name id
  | .finished => .truth (endedAs job before).isSome
  | .uptime => .time (.ofMillis (timeAfter before))
  | .describe => .state id (endedAs job before).isSome
  | .status => ((endedAs job before).map fun ending => .result (resultOf id ending)).getD .running
  | .join =>
    (((fate job before).filter (·.1 ≤ timeAfter before + patience)).map fun (_, ending) =>
      .result (resultOf id ending)).getD .blocked

/-- What is to be told one call after another, after the calls `before`. -/
def truths (patience : Nat) (id : SessionId) (job : Option (Instant × Ending)) :
    List Call → List Call → List Reply
  | _, [] => []
  | before, call :: calls =>
    truth patience id job before call :: truths patience id job (before ++ [call]) calls

/-- The result was asked for after the end. -/
def Collected (job : Option (Instant × Ending)) (calls : List Call) : Prop :=
  ∃ before, before ++ [.status] <+: calls ∧ (endedAs job before).isSome = true

/-- The result was asked for after the end, and then asked or waited for once more. -/
def AskedAgain (job : Option (Instant × Ending)) (calls : List Call) : Prop :=
  ∃ before call, before ++ [call] <+: calls ∧ Collected job before ∧ (call = .status ∨ call = .join)

/-- Does one thing after another; `none` if a result is asked for that was collected before. -/
def Holder.performAll (patience : Nat) : Holder → List Call → Option (List Reply × Holder)
  | h, [] => some ([], h)
  | h, call :: calls => do
    let (reply, h) ← h.perform patience call
    let (replies, h) ← performAll patience h calls
    return (reply :: replies, h)

/-! ## One more call -/

theorem timeAfter_concat (calls : List Call) (call : Call) :
    timeAfter (calls ++ [call]) = timeAfter calls + call.lasts := by
  simp [timeAfter]

theorem toldToEnd_append (now : Instant) (calls more : List Call) :
    toldToEnd now (calls ++ more) =
      (toldToEnd now calls).or (toldToEnd (now + timeAfter calls) more) := by
  induction calls generalizing now with
  | nil => simp [toldToEnd, timeAfter]
  | cons call calls ih =>
    simp only [List.cons_append, toldToEnd, ih, Option.or_assoc, timeAfter, List.map_cons,
      List.sum_cons, Nat.add_assoc]

theorem fate_append (job : Option (Instant × Ending)) (calls more : List Call) :
    fate job (calls ++ more) = (fate job calls).or (toldToEnd (timeAfter calls) more) := by
  rw [fate, fate, toldToEnd_append, Option.or_assoc, Nat.zero_add]

theorem fate_concat (job : Option (Instant × Ending)) (calls : List Call) (call : Call) :
    fate job (calls ++ [call]) = (fate job calls).or (call.ends (timeAfter calls)) := by
  rw [fate_append, toldToEnd, toldToEnd, Option.or_none]

theorem fate_concat_of_ends (h : call.ends (timeAfter calls) = none) :
    fate job (calls ++ [call]) = fate job calls := by
  rw [fate_concat, h, Option.or_none]

theorem endedAs_eq_some :
    endedAs job calls = some ending ↔ ∃ t, fate job calls = some (t, ending) ∧ t ≤ timeAfter calls := by
  simp [endedAs, Option.filter_eq_some_iff]

/-- A job that has ended stays as it ended. -/
theorem endedAs_append (h : endedAs job before = some ending) (more : List Call) :
    endedAs job (before ++ more) = some ending := by
  obtain ⟨t, hfate, ht⟩ := endedAs_eq_some.1 h
  refine endedAs_eq_some.2 ⟨t, by rw [fate_append, hfate, Option.some_or], ht.trans ?_⟩
  simp [timeAfter]

theorem Collected.ended (h : Collected job calls) : ∃ ending, endedAs job calls = some ending := by
  obtain ⟨before, ⟨after, rfl⟩, hended⟩ := h
  obtain ⟨ending, hended⟩ := Option.isSome_iff_exists.1 hended
  exact ⟨ending, by rw [List.append_assoc]; exact endedAs_append hended _⟩

theorem not_collected_nil : ¬ Collected job [] := by
  rintro ⟨before, hprefix, -⟩
  simp at hprefix

theorem collected_concat : Collected job (calls ++ [call]) ↔
    Collected job calls ∨ call = .status ∧ (endedAs job calls).isSome = true := by
  constructor
  · rintro ⟨before, hprefix, hended⟩
    rcases List.prefix_concat_iff.1 hprefix with heq | hprefix
    · obtain ⟨rfl, rfl⟩ := List.append_singleton_inj.1 heq
      exact .inr ⟨rfl, hended⟩
    · exact .inl ⟨before, hprefix, hended⟩
  · rintro (⟨before, hprefix, hended⟩ | ⟨rfl, hended⟩)
    · exact ⟨before, hprefix.trans (List.prefix_append _ _), hended⟩
    · exact ⟨calls, List.prefix_rfl, hended⟩

theorem not_askedAgain_nil : ¬ AskedAgain job [] := by
  rintro ⟨before, call, hprefix, -⟩
  simp at hprefix

theorem askedAgain_concat : AskedAgain job (calls ++ [call]) ↔
    AskedAgain job calls ∨ Collected job calls ∧ (call = .status ∨ call = .join) := by
  constructor
  · rintro ⟨before, c, hprefix, hcollected⟩
    rcases List.prefix_concat_iff.1 hprefix with heq | hprefix
    · obtain ⟨rfl, rfl⟩ := List.append_singleton_inj.1 heq
      exact .inr hcollected
    · exact .inl ⟨before, c, hprefix, hcollected⟩
  · rintro (⟨before, c, hprefix, hcollected⟩ | hcollected)
    · exact ⟨before, c, hprefix.trans (List.prefix_append _ _), hcollected⟩
    · exact ⟨calls, call, List.prefix_rfl, hcollected⟩

theorem truths_concat (patience : Nat) (id : SessionId) (job : Option (Instant × Ending))
    (before calls : List Call) (call : Call) :
    truths patience id job before (calls ++ [call]) =
      truths patience id job before calls ++ [truth patience id job (before ++ calls) call] := by
  induction calls generalizing before with
  | nil => simp [truths]
  | cons c calls ih => simp [truths, ih]

theorem Holder.performAll_concat (patience : Nat) (h : Holder) (calls : List Call) (call : Call) :
    h.performAll patience (calls ++ [call]) =
      (h.performAll patience calls).bind fun done =>
        (done.2.perform patience call).map fun last => (done.1 ++ [last.1], last.2) := by
  induction calls generalizing h with
  | nil =>
    cases hcall : h.perform patience call <;> simp [performAll, hcall]
  | cons c calls ih =>
    cases hc : h.perform patience c with
    | none => simp [performAll, hc]
    | some done =>
      simp only [List.cons_append, performAll, hc, ih, Option.bind_eq_bind, Option.bind_some]
      cases hcalls : done.2.performAll patience calls with
      | none => rfl
      | some rest => cases hlast : rest.2.perform patience call <;> simp [hlast]

/-! ## The session behind the calls -/

/-- The session as it stands after these calls, none of which waited for it. -/
structure Standing (id : SessionId) (job : Option (Instant × Ending)) (calls : List Call)
    (h : Holder) (s : Session) : Prop where
  session : h.session = some s
  clock : h.clock = timeAfter calls
  held : h.held = (fate job calls).isNone
  id : s.id = id
  started : s.started = 0
  ending : s.ending = fate job calls
  collected : s.collected = true ↔ Collected job calls

variable {s : Session}

theorem standing_start (id : SessionId) (job : Option (Instant × Ending)) :
    Standing id job [] (.start id job job.isNone) (Session.start id 0 job) where
  session := rfl
  clock := rfl
  held := by simp [fate, toldToEnd, Holder.start]
  id := rfl
  started := rfl
  ending := by simp [fate, toldToEnd, Session.start]
  collected := by simp [Session.collected, Session.start, not_collected_nil]

namespace Standing

theorem finishedBy (hs : Standing id job calls h s) :
    s.finishedBy h.clock = (endedAs job calls).isSome := by
  rw [Session.finishedBy, hs.ending, hs.clock, endedAs]
  cases fate job calls with
  | none => rfl
  | some end' => by_cases ht : end'.1 ≤ timeAfter calls <;> simp [Option.filter, ht]

/-- A call that is no request for the result changes nothing but the time and what a held job is
told. -/
theorem frame (hs : Standing id job calls h s) {h' : Holder} {s' : Session}
    (hcall : call ≠ .status ∨ endedAs job calls = none) (hsession : h'.session = some s')
    (hclock : h'.clock = h.clock + call.lasts) (hheld : h'.held = (fate job (calls ++ [call])).isNone)
    (hs' : s' = { s with ending := fate job (calls ++ [call]) }) :
    Standing id job (calls ++ [call]) h' s' where
  session := hsession
  clock := by rw [hclock, hs.clock, timeAfter_concat]
  held := hheld
  id := by rw [hs', hs.id]
  started := by rw [hs', hs.started]
  ending := by rw [hs']
  collected := by
    have hno : ¬ (call = .status ∧ (endedAs job calls).isSome = true) := by
      rintro ⟨hstatus, hended⟩
      rcases hcall with hne | hnone
      · exact hne hstatus
      · simp [hnone] at hended
    rw [hs', collected_concat, or_iff_left hno]
    exact hs.collected

/-- Asking something else leaves all as it is. -/
theorem unchanged (hs : Standing id job calls h s) (hcall : call ≠ .status ∨ endedAs job calls = none)
    (hlasts : call.lasts = 0) (hends : call.ends (timeAfter calls) = none) :
    Standing id job (calls ++ [call]) h s := by
  have hfate : fate job (calls ++ [call]) = fate job calls := fate_concat_of_ends hends
  exact hs.frame hcall hs.session (by rw [hlasts, Nat.add_zero]) (by rw [hfate, hs.held])
    (by rw [hfate, ← hs.ending])

theorem advance (hs : Standing id job calls h s) (ms : Nat) :
    Standing id job (calls ++ [.advance ms]) { h with clock := h.clock + ms } s := by
  have hfate : fate job (calls ++ [.advance ms]) = fate job calls := fate_concat_of_ends rfl
  exact hs.frame (.inl (by simp)) hs.session rfl (by rw [hfate, ← hs.held]) (by rw [hfate, ← hs.ending])

/-- Only a job that is still held ends by being told to. -/
theorem release (hs : Standing id job calls h s) (code : Int) :
    ∃ s', Standing id job (calls ++ [.release code]) (h.release code).2 s' := by
  have hfate : fate job (calls ++ [.release code]) =
      (fate job calls).or (some (timeAfter calls, .exited code)) := fate_concat ..
  cases hended : fate job calls with
  | none =>
    have hheld : h.held = true := by rw [hs.held, hended, Option.isNone_none]
    rw [hended, Option.none_or] at hfate
    refine ⟨s.endAt h.clock (.exited code), hs.frame (.inl (by simp)) ?_ rfl ?_ ?_⟩
    · simp [Holder.release, hheld, hs.session]
    · rw [hfate]
      rfl
    · rw [hfate, hs.clock]
      rfl
  | some end' =>
    have hheld : h.held = false := by rw [hs.held, hended, Option.isNone_some]
    rw [hended, Option.some_or] at hfate
    refine ⟨s, hs.frame (.inl (by simp)) ?_ rfl ?_ ?_⟩
    · simp [Holder.release, hheld, hs.session]
    · rw [hfate]
      rfl
    · rw [hfate, ← hended, ← hs.ending]

/-- While the job runs, one is told so and may ask again. -/
theorem status_of_running (hs : Standing id job calls h s) (hrun : endedAs job calls = none) :
    h.perform patience .status = some (.running, h) := by
  have hinquire : s.inquire h.clock = (.running, s) := by
    rw [inquire, hs.ending, hs.clock]
    rw [endedAs] at hrun
    cases hfate : fate job calls with
    | none => rfl
    | some end' =>
      rw [hfate] at hrun
      have ht : ¬ end'.1 ≤ timeAfter calls := by
        intro ht
        simp [Option.filter, ht] at hrun
      exact if_neg ht
  simp only [Holder.perform, hs.session, Holder.ask, Holder.status, hinquire]
  rw [← hs.session]

/-- What asking for the result of a job that has ended comes to. -/
theorem inquire_of_ended (hs : Standing id job calls h s) (hended : endedAs job calls = some ending) :
    s.inquire h.clock =
      (if s.collected then .spent else .ended (resultOf id ending), s.take) := by
  obtain ⟨t, hfate, ht⟩ := endedAs_eq_some.1 hended
  rw [inquire, hs.ending, hs.clock, hfate, hs.id]
  exact if_pos ht

/-- The first request after the end is told the result. -/
theorem status_of_ended (hs : Standing id job calls h s) (hended : endedAs job calls = some ending)
    (hnew : ¬ Collected job calls) :
    ∃ h' s', h.perform patience .status = some (.result (resultOf id ending), h') ∧
      Standing id job (calls ++ [.status]) h' s' := by
  have hinquire := hs.inquire_of_ended hended
  rw [if_neg (mt hs.collected.1 hnew)] at hinquire
  refine ⟨{ h with session := some s.take }, s.take, ?_, ?_⟩
  · simp [Holder.perform, hs.session, Holder.ask, Holder.status, hinquire]
  · have hfate : fate job (calls ++ [.status]) = fate job calls := fate_concat_of_ends rfl
    exact ⟨rfl, by rw [timeAfter_concat]; exact hs.clock, by rw [hfate]; exact hs.held, hs.id, hs.started,
      by rw [hfate]; exact hs.ending, by simp [Session.collected, Session.take, collected_concat, hended]⟩

/-- A result that was collected can neither be asked nor waited for. -/
theorem fails (hs : Standing id job calls h s) (hcollected : Collected job calls)
    (hcall : call = .status ∨ call = .join) : h.perform patience call = none := by
  have hspent := hs.collected.2 hcollected
  rcases hcall with rfl | rfl
  · obtain ⟨ending, hended⟩ := hcollected.ended
    have hinquire := hs.inquire_of_ended hended
    rw [if_pos hspent] at hinquire
    simp [Holder.perform, hs.session, Holder.ask, Holder.status, hinquire]
  · simp [Holder.perform, hs.session, Holder.ask, Holder.join, hspent]

/-- Waiting for a session whose result was not collected ends with it. -/
theorem join (hs : Standing id job calls h s) (hnew : ¬ Collected job calls) :
    ∃ h', h.perform patience .join = some (truth patience id job calls .join, h') := by
  have hperform : h.perform patience .join = h.join patience s := by
    simp only [Holder.perform, hs.session, Holder.ask]
  have hunread := mt hs.collected.1 hnew
  rw [hperform, Holder.join, if_neg hunread, joinedAt, if_neg hunread, hs.ending, hs.clock, hs.id, truth]
  cases fate job calls with
  | none => exact ⟨_, rfl⟩
  | some end' =>
    by_cases ht : end'.1 ≤ timeAfter calls + patience <;> simp [Option.filter, ht]

/-- What is told is the truth, unless the result is asked for again. -/
theorem answers (hs : Standing id job calls h s) (patience : Nat)
    (honce : ¬ (Collected job calls ∧ (call = .status ∨ call = .join))) :
    ∃ h', h.perform patience call = some (truth patience id job calls call, h') ∧
      (call ≠ .join → ∃ s', Standing id job (calls ++ [call]) h' s') := by
  cases call with
  | advance ms => exact ⟨_, rfl, fun _ => ⟨s, hs.advance ms⟩⟩
  | release code =>
    refine ⟨(h.release code).2, ?_, fun _ => hs.release code⟩
    rw [truth, ← hs.held]
    rfl
  | id =>
    refine ⟨h, ?_, fun _ => ⟨s, hs.unchanged (.inl (by simp)) rfl rfl⟩⟩
    simp [Holder.perform, hs.session, Holder.ask, hs.id, truth]
  | finished =>
    refine ⟨h, ?_, fun _ => ⟨s, hs.unchanged (.inl (by simp)) rfl rfl⟩⟩
    simp [Holder.perform, hs.session, Holder.ask, hs.finishedBy, truth]
  | uptime =>
    refine ⟨h, ?_, fun _ => ⟨s, hs.unchanged (.inl (by simp)) rfl rfl⟩⟩
    simp [Holder.perform, hs.session, Holder.ask, Session.uptime, hs.started, hs.clock, truth]
  | describe =>
    refine ⟨h, ?_, fun _ => ⟨s, hs.unchanged (.inl (by simp)) rfl rfl⟩⟩
    simp [Holder.perform, hs.session, Holder.ask, hs.finishedBy, hs.id, truth]
  | status =>
    -- A request while the job runs is told so and leaves the result where it is.
    rw [truth]
    cases hended : endedAs job calls with
    | none => exact ⟨h, hs.status_of_running hended, fun _ => ⟨s, hs.unchanged (.inr hended) rfl rfl⟩⟩
    | some ending =>
      obtain ⟨h', s', hperform, hs'⟩ := hs.status_of_ended hended fun hc => honce ⟨hc, .inl rfl⟩
      exact ⟨h', hperform, fun _ => ⟨s', hs'⟩⟩
  | join =>
    obtain ⟨h', hperform⟩ := hs.join fun hc => honce ⟨hc, .inr rfl⟩
    exact ⟨h', hperform, fun hne => absurd rfl hne⟩

end Standing

/-- Either the truth is told from first to last, or the result was asked for again. -/
theorem performAll_cases (patience : Nat) (id : SessionId) (job : Option (Instant × Ending))
    (hjoin : .join ∉ calls.dropLast) :
    let done := (Holder.start id job job.isNone).performAll patience calls
    (AskedAgain job calls ∧ done = none) ∨
      (¬ AskedAgain job calls ∧ ∃ h, done = some (truths patience id job [] calls, h) ∧
        (.join ∉ calls → ∃ s, Standing id job calls h s)) := by
  -- On the last call: what it meets is what the calls before it have left behind.
  induction calls using List.reverseRecOn with
  | nil => exact .inr ⟨not_askedAgain_nil, _, rfl, fun _ => ⟨_, standing_start id job⟩⟩
  | append_singleton calls call ih =>
    rw [List.dropLast_concat] at hjoin
    intro done
    have hdone : done = _ := Holder.performAll_concat patience _ calls call
    rcases ih (mt List.mem_of_mem_dropLast hjoin) with ⟨hagain, hnone⟩ | ⟨hnot, h, hsome, hstands⟩
    · exact .inl ⟨askedAgain_concat.2 (.inl hagain), by rw [hdone, hnone]; rfl⟩
    · obtain ⟨s, hs⟩ := hstands hjoin
      rw [hsome, Option.bind_some] at hdone
      by_cases honce : Collected job calls ∧ (call = .status ∨ call = .join)
      · refine .inl ⟨askedAgain_concat.2 (.inr honce), ?_⟩
        rw [hdone, hs.fails honce.1 honce.2]
        rfl
      · obtain ⟨h', hperform, hs'⟩ := hs.answers patience honce
        refine .inr ⟨fun hagain => (askedAgain_concat.1 hagain).elim hnot honce, h', ?_, fun hlast => ?_⟩
        · rw [hdone, hperform, truths_concat]
          rfl
        · exact hs' fun hcall => hlast (by simp [hcall])

/-- **The result of a session can be collected once.** Let a session's holder ask anything at any times,
and wait for the session in the end if they like. They are told the truth throughout: whether the job
has ended by then; that it runs, for as long as it does, when they ask for the result, and the result
after that; the same result when they wait for it. Only one thing fails, and always does: asking or
waiting for the result when it was asked for after the end before. A job that has ended stays as it
ended. -/
theorem result_is_collected_once (patience : Nat) (id : SessionId) (job : Option (Instant × Ending))
    (calls : List Call) (hjoin : .join ∉ calls.dropLast) :
    let done := (Holder.start id job job.isNone).performAll patience calls
    (done = none ↔ AskedAgain job calls) ∧
    (¬ AskedAgain job calls → ∃ h, done = some (truths patience id job [] calls, h)) ∧
    ∀ before ending, endedAs job before = some ending →
      ∀ more, endedAs job (before ++ more) = some ending := by
  intro done
  rcases performAll_cases patience id job hjoin with ⟨hagain, hnone⟩ | ⟨hnot, h, hsome, -⟩
  · exact ⟨iff_of_true hnone hagain, fun hnot => absurd hagain hnot, fun _ _ => endedAs_append⟩
  · refine ⟨iff_of_false (fun hnone => ?_) hnot, fun _ => ⟨h, hsome⟩, fun _ _ => endedAs_append⟩
    cases hnone.symm.trans hsome

/-- The holder of a held job asks while it runs, tells it to end, asks once more, and goes on asking
other things. -/
def patientHolder : List Call :=
  [.finished, .status, .status, .advance 20, .release 3, .finished, .status, .uptime, .describe]

theorem result_is_collected_once_patientHolder :
    .join ∉ patientHolder.dropLast ∧ ¬ AskedAgain none patientHolder ∧
    ∃ h, (Holder.start ⟨7⟩ none true).performAll 1000 patientHolder =
      some ([.truth false, .running, .running, .done, .truth true, .truth true, .result (.ok 3),
        .time (.ofMillis 20), .state ⟨7⟩ true], h) := by
  have hjoin : .join ∉ patientHolder.dropLast := by decide
  obtain ⟨hfails, htells, -⟩ := result_is_collected_once 1000 ⟨7⟩ none patientHolder hjoin
  have honce : ¬ AskedAgain none patientHolder := fun hagain => nomatch hfails.2 hagain
  exact ⟨hjoin, honce, htells honce⟩

/-- The holder of a held job asks for its result twice when it has ended, and waits for it. -/
def hastyHolder : List Call := [.status, .release 3, .finished, .status, .status, .join]

/-- The job has ended with status three when it is asked for the second time, and nothing is told. -/
theorem second_request_fails :
    truths 1000000 ⟨1⟩ none [] hastyHolder =
      [.running, .truth true, .truth true, .result (.ok 3), .result (.ok 3), .result (.ok 3)] ∧
    (Holder.start ⟨1⟩ none true).performAll 1000000 hastyHolder = none ∧
    (Holder.start ⟨1⟩ none true).performAll 1000000 [.release 3, .status, .join] = none :=
  ⟨rfl, rfl, rfl⟩

end StreamServer.Session
