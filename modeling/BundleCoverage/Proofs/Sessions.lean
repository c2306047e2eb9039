import BundleCoverage.Inspector.Session
import Mathlib.Data.List.Infix

/-!
# Sessions with the inspector

A session is told to start and to take coverage, in any order and as often as one likes, and the
inspector may answer each command as it likes.  At the other end this shows as one list of
commands (`ServerSession.protocol`) that is cut off between two calls (`ServerSession.Reached`).  So
a command that starts coverage and fails is followed by closing
(`ServerSession.Reached.drop_eq_close`).

Coverage is running right after a start that said so and at no other time
(`ServerSession.state_after_eq_running_iff`).  A call that takes coverage gives what the inspector
answers if coverage is running, and nothing otherwise.  Since it ends the session, no later call
gives anything (`ServerSession.pairwise_exchanges`).
-/

namespace BundleCoverage.ServerSession

/-! ## Calls -/

/-- A call that takes coverage, with the disk as it is then. -/
inductive Taking where
  /-- The entries are given back. -/
  | collect (d : Disk)
  /-- The entries are written to a cache. -/
  | persist (cache : Cache) (stamp : RunStamp) (d : Disk)

/-- A call of a session. -/
inductive Call where
  /-- Starting coverage. -/
  | start
  /-- Taking it. -/
  | take (t : Taking)

/-- What a call gave. -/
inductive Exchange where
  /-- Whether coverage is running. -/
  | started (running : Bool)
  /-- Entries. -/
  | collected (entries : List Entry)
  /-- A disk that was `d` and is `d'`, and the path of a document, if one was written. -/
  | persisted (d d' : Disk) (document : Except Error (Option String))

/-- Whether a call gave entries or wrote something. -/
def Exchange.Yields : Exchange → Prop
  | .started _ => False
  | .collected entries => entries ≠ []
  | .persisted d d' document => d' ≠ d ∨ document ≠ .ok none

/-- What a call gives for the entries that are taken. -/
def Taking.exchange (entries : Disk → List Entry) : Taking → Exchange
  | .collect d => .collected (entries d)
  | .persist cache stamp d =>
    match entries d with
    | [] => .persisted d d (.ok none)
    | e :: rest =>
      let (d', document) := cache.writeServer d stamp (e :: rest)
      .persisted d d' (document.map some)

/-- A session after a call, and what the call gave. -/
def perform (inspector : Inspector) (s : ServerSession) : Call → ServerSession × Exchange
  | .start =>
    let (s, running) := s.start inspector
    (s, .started running)
  | .take (.collect d) =>
    let (s, entries) := s.collect inspector d
    (s, .collected entries)
  | .take (.persist cache stamp d) =>
    let (s, d', document) := s.persist inspector cache stamp d
    (s, .persisted d d' document)

/-- A session after some calls, in order. -/
def after (inspector : Inspector) (s : ServerSession) (calls : List Call) : ServerSession :=
  calls.foldl (fun s c => (s.perform inspector c).1) s

/-- What some calls gave, in order. -/
def exchanges (inspector : Inspector) (s : ServerSession) : List Call → List Exchange
  | [] => []
  | c :: calls =>
    let (s, x) := s.perform inspector c
    x :: exchanges inspector s calls

variable {inspector : Inspector}

theorem after_concat (s : ServerSession) (calls : List Call) (c : Call) :
    s.after inspector (calls ++ [c]) = ((s.after inspector calls).perform inspector c).1 := by
  rw [after, List.foldl_append]
  rfl

theorem exchanges_concat (s : ServerSession) (calls : List Call) (c : Call) :
    s.exchanges inspector (calls ++ [c])
      = s.exchanges inspector calls ++ [((s.after inspector calls).perform inspector c).2] := by
  induction calls generalizing s with
  | nil => rfl
  | cons c' calls ih =>
      show _ :: exchanges inspector _ (calls ++ [c]) = _
      rw [ih]
      rfl

/-! ## Single calls -/

/-- A session after coverage was taken, if it was running. -/
def ended (s : ServerSession) : ServerSession :=
  if s.state = .running then
    ({ s with sent := s.sent ++ [.takeCoverage] ++ [.stopCoverage] } : ServerSession).close .collected
  else s

theorem fst_collect (inspector : Inspector) (s : ServerSession) (d : Disk) :
    (s.collect inspector d).1 = s.ended := by
  unfold collect ended
  cases s.state with
  | detached => rfl
  | attached => rfl
  | running => rfl
  | collected => rfl

theorem snd_collect_of_ne {s : ServerSession} (h : s.state ≠ .running) (d : Disk) :
    (s.collect inspector d).2 = [] := by
  unfold collect
  cases hstate : s.state with
  | detached => rfl
  | attached => rfl
  | running => exact absurd hstate h
  | collected => rfl

/-- Coverage is taken in the same way by all calls that take it. -/
theorem perform_take (s : ServerSession) (t : Taking) :
    s.perform inspector (.take t)
      = (s.ended, t.exchange fun d => (s.collect inspector d).2) := by
  cases t with
  | collect d =>
      rw [perform, ← fst_collect inspector s d]
      rfl
  | persist cache stamp d =>
      rw [perform, persist, ← fst_collect inspector s d, Taking.exchange]
      cases s.collect inspector d with
      | mk s' entries =>
          cases entries with
          | nil => rfl
          | cons e rest => rfl

theorem not_yields_exchange_nil (t : Taking) : ¬(t.exchange fun _ => []).Yields := by
  cases t with
  | collect d => exact fun h => h rfl
  | persist cache stamp d => exact fun h => h.elim (· rfl) (· rfl)

theorem state_ended_ne (s : ServerSession) : s.ended.state ≠ .running := by
  unfold ended
  split
  · exact SessionState.noConfusion
  · assumption

/-- A start changes how far a session is and what was sent, and says whether coverage is running
then. -/
theorem exists_start_eq (inspector : Inspector) (s : ServerSession) :
    ∃ state sent, s.start inspector = ({ s with state, sent }, state == .running) := by
  obtain ⟨buildDirectory, filter, state, sent⟩ := s
  cases state with
  | detached => exact ⟨.detached, sent, rfl⟩
  | collected => exact ⟨.collected, sent, rfl⟩
  | running => exact ⟨.running, sent, rfl⟩
  | attached =>
      dsimp only [start, send]
      cases inspector (sent ++ [.enable]) with
      | error e => exact ⟨.detached, _, rfl⟩
      | ok answer =>
          dsimp only
          cases inspector (sent ++ [.enable] ++ [.startCoverage]) with
          | error e => exact ⟨.detached, _, rfl⟩
          | ok answer' => exact ⟨.running, _, rfl⟩

theorem start_eq_true_iff (s : ServerSession) :
    (s.start inspector).2 = true ↔ (s.start inspector).1.state = .running := by
  obtain ⟨state, sent, hstart⟩ := exists_start_eq inspector s
  rw [hstart, beq_iff_eq]

/-! ## Commands -/

/-- The commands of a whole session.  The session is closed right after a command that starts
coverage and fails. -/
def protocol (inspector : Inspector) : List Command :=
  match inspector [.enable] with
  | .error _ => [.enable, .close]
  | .ok _ =>
    match inspector [.enable, .startCoverage] with
    | .error _ => [.enable, .startCoverage, .close]
    | .ok _ => [.enable, .startCoverage, .takeCoverage, .stopCoverage, .close]

/-- How far a session may be, and the commands that were sent by then. -/
inductive Reached (inspector : Inspector) : SessionState → List Command → Prop where
  /-- There is no inspector. -/
  | detached : Reached inspector .detached []
  /-- Nothing was sent. -/
  | attached : Reached inspector .attached []
  /-- Enabling failed. -/
  | notEnabled {e : Error} (henable : inspector [.enable] = .error e) :
      Reached inspector .detached [.enable, .close]
  /-- Starting failed. -/
  | notStarted {answer : Json} {e : Error} (henable : inspector [.enable] = .ok answer)
      (hstart : inspector [.enable, .startCoverage] = .error e) :
      Reached inspector .detached [.enable, .startCoverage, .close]
  /-- Coverage was started. -/
  | running {answer answer' : Json} (henable : inspector [.enable] = .ok answer)
      (hstart : inspector [.enable, .startCoverage] = .ok answer') :
      Reached inspector .running [.enable, .startCoverage]
  /-- Coverage was taken. -/
  | collected {answer answer' : Json} (henable : inspector [.enable] = .ok answer)
      (hstart : inspector [.enable, .startCoverage] = .ok answer') :
      Reached inspector .collected
        [.enable, .startCoverage, .takeCoverage, .stopCoverage, .close]

namespace Reached

variable {state : SessionState} {sent : List Command}

theorem isPrefix (h : Reached inspector state sent) : sent <+: protocol inspector := by
  cases h with
  | detached => exact List.nil_prefix
  | attached => exact List.nil_prefix
  | notEnabled henable => simp [protocol, henable]
  | notStarted henable hstart => simp [protocol, henable, hstart]
  | running henable hstart => simp [protocol, henable, hstart]
  | collected henable hstart => simp [protocol, henable, hstart]

theorem close_notMem_dropLast (h : Reached inspector state sent) : .close ∉ sent.dropLast := by
  cases h <;> decide

/-- A command that starts coverage and fails is followed by closing. -/
theorem drop_eq_close (h : Reached inspector state sent) {i : Nat} {c : Command} {e : Error}
    (hc : sent[i]? = some c) (hstarts : c = .enable ∨ c = .startCoverage)
    (hfails : inspector (sent.take (i + 1)) = .error e) : sent.drop (i + 1) = [.close] := by
  -- only the first two commands start coverage
  have hfirst : i = 0 ∨ i = 1 := by
    by_contra hlater
    have hrest : c ∈ sent.drop 2 := by
      rw [List.mem_iff_getElem?]
      exact ⟨i - 2, by rw [List.getElem?_drop, show 2 + (i - 2) = i by omega, hc]⟩
    rcases hstarts with rfl | rfl
    · cases h <;> revert hrest <;> decide
    · cases h <;> revert hrest <;> decide
  cases h with
  | detached => cases hc
  | attached => cases hc
  | notEnabled henable =>
      rcases hfirst with rfl | rfl
      · rfl
      · cases hc
        rcases hstarts with hstarts | hstarts <;> cases hstarts
  | notStarted henable hstart =>
      rcases hfirst with rfl | rfl
      · cases henable.symm.trans hfails
      · rfl
  | running henable hstart =>
      rcases hfirst with rfl | rfl
      · cases henable.symm.trans hfails
      · cases hstart.symm.trans hfails
  | collected henable hstart =>
      rcases hfirst with rfl | rfl
      · cases henable.symm.trans hfails
      · cases hstart.symm.trans hfails

theorem state_eq_running_iff (h : Reached inspector state sent) :
    state = .running ↔ sent = [.enable, .startCoverage] := by
  cases h <;> decide

theorem start {s : ServerSession} (h : Reached inspector s.state s.sent) :
    Reached inspector (s.start inspector).1.state (s.start inspector).1.sent := by
  obtain ⟨buildDirectory, filter, state, sent⟩ := s
  cases h with
  | detached => exact .detached
  | attached =>
      dsimp only [ServerSession.start, send, List.nil_append]
      cases henable : inspector [.enable] with
      | error e => exact .notEnabled henable
      | ok answer =>
          dsimp only [List.cons_append, List.nil_append]
          cases hstart : inspector [.enable, .startCoverage] with
          | error e => exact .notStarted henable hstart
          | ok answer' => exact .running henable hstart
  | notEnabled henable => exact .notEnabled henable
  | notStarted henable hstart => exact .notStarted henable hstart
  | running henable hstart => exact .running henable hstart
  | collected henable hstart => exact .collected henable hstart

theorem ended {s : ServerSession} (h : Reached inspector s.state s.sent) :
    Reached inspector s.ended.state s.ended.sent := by
  obtain ⟨buildDirectory, filter, state, sent⟩ := s
  cases h with
  | detached => exact .detached
  | attached => exact .attached
  | notEnabled henable => exact .notEnabled henable
  | notStarted henable hstart => exact .notStarted henable hstart
  | running henable hstart => exact .collected henable hstart
  | collected henable hstart => exact .collected henable hstart

theorem perform {s : ServerSession} (h : Reached inspector s.state s.sent) (c : Call) :
    Reached inspector (s.perform inspector c).1.state (s.perform inspector c).1.sent := by
  cases c with
  | start => exact h.start
  | take t =>
      rw [perform_take]
      exact h.ended

theorem after {s : ServerSession} (h : Reached inspector s.state s.sent) (calls : List Call) :
    Reached inspector (s.after inspector calls).state (s.after inspector calls).sent := by
  induction calls generalizing s with
  | nil => exact h
  | cons c calls ih => exact ih (h.perform c)

end Reached

/-! ## Coverage that is taken -/

/-- The scripts in scope among those that an inspector answers with, in order and with their
texts. -/
def taken (inspector : Inspector) (s : ServerSession) (d : Disk) : List Entry :=
  let answer := inspector [.enable, .startCoverage, .takeCoverage]
  let scripts := (answer.toOption.bind scripts?).getD []
  (scripts.filter fun e => s.filter.accepts e.url s.buildDirectory).map (s.attachText d)

/-- A session with the build directory and the scope of another. -/
def SameScope (s s' : ServerSession) : Prop :=
  s'.buildDirectory = s.buildDirectory ∧ s'.filter = s.filter

theorem sameScope_perform (inspector : Inspector) (s : ServerSession) (c : Call) :
    SameScope s (s.perform inspector c).1 := by
  cases c with
  | start =>
      show SameScope s (s.start inspector).1
      obtain ⟨state, sent, hstart⟩ := exists_start_eq inspector s
      rw [hstart]
      exact ⟨rfl, rfl⟩
  | take t =>
      rw [perform_take]
      unfold ended
      split
      · exact ⟨rfl, rfl⟩
      · exact ⟨rfl, rfl⟩

theorem sameScope_after (s : ServerSession) (calls : List Call) :
    SameScope s (s.after inspector calls) := by
  induction calls generalizing s with
  | nil => exact ⟨rfl, rfl⟩
  | cons c calls ih =>
      obtain ⟨hdirectory, hfilter⟩ := sameScope_perform inspector s c
      obtain ⟨hdirectory', hfilter'⟩ := ih (s.perform inspector c).1
      exact ⟨hdirectory'.trans hdirectory, hfilter'.trans hfilter⟩

theorem snd_collect_of_running {s : ServerSession} (hreached : Reached inspector s.state s.sent)
    (h : s.state = .running) (d : Disk) : (s.collect inspector d).2 = s.taken inspector d := by
  have hsent := hreached.state_eq_running_iff.1 h
  unfold collect
  rw [h]
  dsimp only [send]
  rw [hsent]
  rfl

theorem taken_eq_of_sameScope {s s' : ServerSession} (h : SameScope s s') (d : Disk) :
    s'.taken inspector d = s.taken inspector d := by
  obtain ⟨hdirectory, hfilter⟩ := h
  have htexts : s'.attachText d = s.attachText d := by
    funext e
    rw [attachText, attachText, hdirectory]
  rw [taken, taken, hdirectory, hfilter, htexts]

/-! ## Runs of calls -/

/-- Coverage is running if and only if the last call was a start that said so. -/
theorem state_after_eq_running_iff (inspector : Inspector) {s : ServerSession}
    (h : s.state ≠ .running) (calls : List Call) :
    (s.after inspector calls).state = .running ↔
      (s.exchanges inspector calls).getLast? = some (.started true) := by
  induction calls using List.reverseRecOn with
  | nil => simp [after, exchanges, h]
  | append_singleton calls c _ =>
      rw [after_concat, exchanges_concat, List.getLast?_concat]
      cases c with
      | start =>
          show ((s.after inspector calls).start inspector).1.state = .running ↔
            some (Exchange.started ((s.after inspector calls).start inspector).2) = _
          rw [← start_eq_true_iff]
          simp
      | take t =>
          rw [perform_take]
          constructor
          · intro hrunning
            exact absurd hrunning (state_ended_ne _)
          · intro hlast
            cases t with
            | collect d => cases hlast
            | persist cache stamp d =>
                simp only [Taking.exchange] at hlast
                split at hlast <;> cases hlast

theorem not_yields_of_state_ne {s : ServerSession} (h : s.state ≠ .running) (c : Call) :
    ¬(s.perform inspector c).2.Yields := by
  cases c with
  | start => exact id
  | take t =>
      rw [perform_take]
      have hnothing : (fun d => (s.collect inspector d).2) = fun _ => [] :=
        funext fun d => snd_collect_of_ne h d
      rw [hnothing]
      exact not_yields_exchange_nil t

/-- After coverage was taken no call yields anything. -/
theorem not_yields_of_collected {s : ServerSession} (h : s.state = .collected)
    (calls : List Call) : ∀ x ∈ s.exchanges inspector calls, ¬x.Yields := by
  induction calls generalizing s with
  | nil => intro x hx; cases hx
  | cons c calls ih =>
      have hnext : (s.perform inspector c).1.state = .collected := by
        cases c with
        | start => simp [perform, start, h]
        | take t => simp [perform_take, ended, h]
      intro x hx
      rcases List.mem_cons.1 hx with rfl | hx
      · exact not_yields_of_state_ne (by simp [h]) c
      · exact ih hnext x hx

/-- Of all calls at most one yields something. -/
theorem pairwise_exchanges (s : ServerSession) (calls : List Call) :
    (s.exchanges inspector calls).Pairwise fun x y => ¬(x.Yields ∧ y.Yields) := by
  induction calls generalizing s with
  | nil => exact .nil
  | cons c calls ih =>
      refine List.pairwise_cons.2 ⟨?_, ih (s.perform inspector c).1⟩
      rintro y hy ⟨hfirst, hlater⟩
      by_cases hrunning : s.state = .running
      · cases c with
        | start => exact hfirst
        | take t =>
            have hcollected : (s.perform inspector (.take t)).1.state = .collected := by
              simp [perform_take, ended, hrunning, close]
            exact not_yields_of_collected hcollected calls y hy hlater
      · exact not_yields_of_state_ne hrunning c hfirst

/-- What holds of a session after some calls, and of the call that comes next. -/
structure Orderly (inspector : Inspector) (s : ServerSession) (calls : List Call) : Prop where
  /-- The commands that were sent are those of a session that is as far. -/
  reached : Reached inspector (s.after inspector calls).state (s.after inspector calls).sent
  /-- They are the first ones of the protocol. -/
  commands : (s.after inspector calls).sent <+: protocol inspector
  /-- A command that starts coverage and fails is directly followed by closing. -/
  closes (i : Nat) (c : Command) (e : Error) : (s.after inspector calls).sent[i]? = some c →
    c = .enable ∨ c = .startCoverage →
    inspector ((s.after inspector calls).sent.take (i + 1)) = .error e →
    (s.after inspector calls).sent.drop (i + 1) = [.close]
  /-- Nothing was sent after closing. -/
  closed : .close ∉ (s.after inspector calls).sent.dropLast
  /-- A start says whether coverage is running afterwards. -/
  started : ((s.after inspector calls).start inspector).2 = true ↔
    ((s.after inspector calls).start inspector).1.state = .running
  /-- Coverage is running from the command that starts it up to the one that takes it. -/
  running : (s.after inspector calls).state = .running ↔
    (s.after inspector calls).sent = [.enable, .startCoverage]
  /-- At most one call yielded something. -/
  once : (s.exchanges inspector calls).Pairwise fun x y => ¬(x.Yields ∧ y.Yields)
  /-- A call yields something only right after a start that said that coverage is running. -/
  ready (t : Taking) : ((s.after inspector calls).perform inspector (.take t)).2.Yields →
    (s.exchanges inspector calls).getLast? = some (.started true)
  /-- Then it takes the scripts in scope. -/
  takes (t : Taking) : (s.exchanges inspector calls).getLast? = some (.started true) →
    ((s.after inspector calls).perform inspector (.take t)).2 = t.exchange (s.taken inspector)

/-- A session that was opened, with an inspector or without one. -/
def opened (buildDirectory : String) (filter : ServerFilter) (connected : Bool) : ServerSession :=
  { buildDirectory, filter, state := if connected then .attached else .detached }

theorem orderly_calls (inspector : Inspector) (buildDirectory : String) (filter : ServerFilter)
    (connected : Bool) (calls : List Call) :
    Orderly inspector (opened buildDirectory filter connected) calls := by
  generalize hs : opened buildDirectory filter connected = s
  have hreached : Reached inspector s.state s.sent := by
    subst hs
    cases connected with
    | false => exact .detached
    | true => exact .attached
  have hidle : s.state ≠ .running := by
    subst hs
    cases connected with
    | false => exact SessionState.noConfusion
    | true => exact SessionState.noConfusion
  have hafter := hreached.after calls
  have hrunning := state_after_eq_running_iff inspector hidle calls
  refine ⟨hafter, hafter.isPrefix, fun i c e => hafter.drop_eq_close, hafter.close_notMem_dropLast,
    start_eq_true_iff _, hafter.state_eq_running_iff, pairwise_exchanges s calls, ?_, ?_⟩
  · intro t hyields
    by_contra hlast
    exact not_yields_of_state_ne (mt hrunning.1 hlast) (.take t) hyields
  · intro t hlast
    have htaken : (fun d => ((s.after inspector calls).collect inspector d).2)
        = s.taken inspector := by
      funext d
      rw [snd_collect_of_running hafter (hrunning.2 hlast),
        taken_eq_of_sameScope (sameScope_after s calls)]
    rw [perform_take, htaken]

/-- An inspector that answers every command, and tells of a script in scope and one of the
runtime. -/
def answering : Inspector := fun sent =>
  let script (url : String) : Json := .obj [("scriptId", .str "7"), ("url", .str url)]
  if sent.getLast? = some .takeCoverage then
    .ok (.obj [("result", .arr [script "node:internal/fs",
      script "file:///srv/.next/server/app/page.js"])])
  else .ok (.obj [])

/-- After a start, the first of two calls that take coverage gives the script in scope, and all
commands of the protocol are sent. -/
theorem orderly_answering :
    let s := opened ".next" {} true
    let calls : List Call := [.start, .take (.collect .empty), .take (.collect .empty)]
    Orderly answering s calls ∧ (s.after answering calls).sent = protocol answering ∧
      s.exchanges answering calls
        = [.started true, .collected [{ url := "file:///srv/.next/server/app/page.js" }],
          .collected []] := by
  intro s calls
  have htaken : s.taken answering .empty
      = [{ url := "file:///srv/.next/server/app/page.js" }] := by
    decide +kernel
  have hstarted : s.exchanges answering [.start] = [.started true] := rfl
  have htakes := (orderly_calls answering ".next" {} true [.start]).takes (.collect .empty)
    (congrArg List.getLast? hstarted)
  refine ⟨orderly_calls answering ".next" {} true calls, rfl, ?_⟩
  calc s.exchanges answering calls
      = [.started true, ((s.after answering [.start]).perform answering
          (.take (.collect .empty))).2, .collected []] := rfl
    _ = _ := by
        rw [htakes, Taking.exchange, htaken]

end BundleCoverage.ServerSession
