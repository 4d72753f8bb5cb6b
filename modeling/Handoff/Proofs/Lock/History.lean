import Handoff.Proofs.Lock.Effect
import Handoff.Proofs.Lock.Manners

/-!
# What the word of a sleeping lock remembers

The word of a sleeping lock has two values for a lock that is held. Which of them it has is a matter
of history: of the *tenure* of the holder, which begins with the event by which the holder got the
lock. The word says "has waiters" if the lock was handed over then, since a thread that is woken
assumes that others wait, or if somebody announced itself since, by starting to wait or by giving up
after a while. An attempt that is so late that its first look at the clock finds no time left gives
up without a word (`Mutex.late_attempt_not_announced`).

`Standing.Remembers` says so of the announcement of any lock that is used step by step; one event
after the other keeps it (`Standing.Remembers.snoc`). Only the sleeping lock shows the announcement
(`Mutex.word_tells_history`).
-/

namespace Handoff

variable {ι : Type} {m : Manner}

/-! ### Events -/

/-- A step that was taken, and its answer. -/
structure SessionEvent (ι : Type) where
  step : SessionStep ι
  answer : SessionAnswer ι

namespace SessionEvent

/-- Whether somebody holds the lock by this event, who takes it or is handed it. -/
def grants (e : SessionEvent ι) : Bool := e.step.takes e.answer || e.answer.handsOver

/-- Whether the lock was given back. -/
def releases (e : SessionEvent ι) : Bool := e.answer.next?.isSome

/-- Whether a thread started to wait. -/
def waits (e : SessionEvent ι) : Bool := e.answer matches .waiting

/-- Whether somebody announced itself, a thread that waits or an attempt that gave up. -/
def announces (e : SessionEvent ι) : Bool := e.waits || e.step.givesUp e.answer

theorem waits_eq_false {step : SessionStep ι} {answer : SessionAnswer ι} (h : answer ≠ .waiting) :
    (SessionEvent.mk step answer).waits = false := by
  cases answer <;> first | rfl | exact absurd rfl h

end SessionEvent

/-- The events of a script. -/
def Session.events (steps : List (SessionStep ι)) (results : List (Reply ι × View)) :
    List (SessionEvent ι) :=
  List.zipWith (fun step result => ⟨step, result.1.answer⟩) steps results

/-- Whether a thread is started that waits without a deadline. A span beyond the end of the clock
sets none. -/
def SessionStep.isUntimed : SessionStep ι → Bool
  | .spawn _ => true
  | .spawnFor _ span start => (start.later? span).isNone
  | _ => false

namespace Standing

variable {a a' : Standing ι} {step : SessionStep ι} {reply : Reply ι}
  {past : List (SessionEvent ι)}

/-- How a lock stands tells its history: whether it was announced that somebody waits is whether the
holder was handed the lock or somebody announced itself in the tenure, and that much is known if
somebody has started to wait since the last release. -/
structure Remembers (past : List (SessionEvent ι)) (a : Standing ι) : Prop where
  tenure (hheld : a.locked = true) :
    ∃ before grant tenure, past = before ++ grant :: tenure ∧ grant.grants = true ∧
      (∀ e ∈ tenure, e.grants = false ∧ e.releases = false) ∧
      a.announced = (grant.answer.handsOver || tenure.any SessionEvent.announces)
  wait {before between : List (SessionEvent ι)} {w : SessionEvent ι}
    (hpast : past = before ++ w :: between) (hwaits : w.waits = true)
    (hkept : ∀ e ∈ between, e.releases = false) : a.locked = true ∧ a.announced = true

theorem remembers_new (caller : ι) : (new caller).Remembers [] where
  tenure hheld := nomatch hheld
  wait hpast := absurd hpast.symm (List.append_ne_nil_of_right_ne_nil _ (List.cons_ne_nil _ _))

/-- What is in a list with one more event is the last one of it, or was there before. -/
theorem concat_eq_append_cons {α : Type} {past before between : List α} {e w : α}
    (h : past ++ [e] = before ++ w :: between) :
    w = e ∧ between = [] ∨ ∃ between', between = between' ++ [e] ∧ past = before ++ w :: between' := by
  rcases List.eq_nil_or_concat between with rfl | ⟨between', e', rfl⟩
  · obtain ⟨-, hlast⟩ := List.append_inj' h rfl
    exact .inl ⟨(List.singleton_inj.1 hlast).symm, rfl⟩
  · rw [List.concat_eq_append, ← List.cons_append, ← List.append_assoc] at h
    obtain ⟨hpast, hlast⟩ := List.append_inj' h rfl
    obtain rfl := List.singleton_inj.1 hlast
    exact .inr ⟨between', List.concat_eq_append, hpast⟩

namespace Remembers

variable {e : SessionEvent ι}

/-- A tenure begins. Either the lock was free before, or it is given back by the same event. -/
theorem begin (h : a.Remembers past) (hcut : a.locked = false ∨ e.releases = true)
    (hgrants : a'.locked = true → e.grants = true) (hwaits : e.waits = false)
    (hannounced : a'.announced = e.answer.handsOver) : a'.Remembers (past ++ [e]) where
  tenure hheld := ⟨past, e, [], rfl, hgrants hheld, nofun, by rw [hannounced, List.any_nil, Bool.or_false]⟩
  wait {before between w} hpast hwaiting hkept := by
    rcases concat_eq_append_cons hpast with ⟨rfl, -⟩ | ⟨between', rfl, hbefore⟩
    · exact absurd (hwaits.symm.trans hwaiting) Bool.false_ne_true
    · rcases hcut with hfree | hreleases
      · obtain ⟨hheld, -⟩ := h.wait hbefore hwaiting fun e' he' =>
          hkept e' (List.mem_append_left _ he')
        exact absurd (hfree.symm.trans hheld) Bool.false_ne_true
      · have hkept := hkept e (List.mem_append_right _ (List.mem_singleton_self e))
        exact absurd (hkept.symm.trans hreleases) Bool.false_ne_true

/-- A tenure goes on. -/
theorem extend (h : a.Remembers past) (hgrants : e.grants = false) (hreleases : e.releases = false)
    (hwaits : e.waits = true → a.locked = true) (hlocked : a'.locked = a.locked)
    (hannounced : a'.announced = (a.announced || e.announces)) :
    a'.Remembers (past ++ [e]) where
  tenure hheld := by
    obtain ⟨before, grant, tenure, rfl, hgrant, hkept, hknown⟩ := h.tenure (hlocked ▸ hheld)
    refine ⟨before, grant, tenure ++ [e], by rw [List.append_assoc, List.cons_append], hgrant, ?_, ?_⟩
    · intro e' he'
      rcases List.mem_append.1 he' with he' | he'
      · exact hkept e' he'
      · obtain rfl := List.mem_singleton.1 he'
        exact ⟨hgrants, hreleases⟩
    · rw [hannounced, hknown, List.any_append, List.any_cons, List.any_nil, Bool.or_false,
        Bool.or_assoc]
  wait {before between w} hpast hwaiting hkept := by
    rw [hlocked, hannounced]
    rcases concat_eq_append_cons hpast with ⟨rfl, -⟩ | ⟨between', rfl, hbefore⟩
    · refine ⟨hwaits hwaiting, ?_⟩
      rw [SessionEvent.announces, hwaiting, Bool.true_or, Bool.or_true]
    · obtain ⟨hheld, hknown⟩ := h.wait hbefore hwaiting fun e' he' =>
        hkept e' (List.mem_append_left _ he')
      exact ⟨hheld, by rw [hknown, Bool.true_or]⟩

/-- Every step is remembered. -/
theorem snoc (h : a.Remembers past) (heffect : Effect m a step reply a') :
    a'.Remembers (past ++ [⟨step, reply.answer⟩]) := by
  cases heffect with
  | @take answer id hfree htakes =>
    obtain ⟨hnext, hwaiting⟩ := SessionStep.next?_of_takes htakes
    refine h.begin (.inl hfree) (fun _ => ?_) ?_ ?_
    · rw [SessionEvent.grants, htakes, Bool.true_or]
    · exact SessionEvent.waits_eq_false hwaiting
    · rw [SessionAnswer.handsOver, hnext]
      rfl
  | wait hheld hwaiter =>
    refine h.extend ?_ rfl (fun _ => hheld) rfl ?_
    · rw [SessionEvent.grants, SessionStep.takes_waiting]
      rfl
    · exact (Bool.or_true _).symm
  | @handOn answer hheld hnext =>
    have hwaiting : answer ≠ .waiting := by
      rintro rfl
      cases hnext
    have hover : answer.handsOver = a.waiting.head?.isSome := by
      rw [SessionAnswer.handsOver, hnext, Option.any_some, m.isNobody_tell, Bool.not_not]
    refine h.begin (.inr ?_) (fun hheld' => ?_) (SessionEvent.waits_eq_false hwaiting) ?_
    · rw [SessionEvent.releases, hnext]
      rfl
    · rw [SessionEvent.grants, hover, Bool.or_eq_true]
      exact .inr hheld'
    · rw [hover, handOn]
      cases a.waiting <;> rfl
  | @giveUp answer hheld hgivesUp =>
    obtain ⟨hnext, hwaiting⟩ := SessionStep.next?_of_givesUp hgivesUp
    refine h.extend ?_ ?_ (fun _ => hheld) rfl ?_
    · rw [SessionEvent.grants, SessionStep.takes_of_givesUp hgivesUp, SessionAnswer.handsOver, hnext]
      rfl
    · rw [SessionEvent.releases, hnext]
      rfl
    · rw [SessionEvent.announces, hgivesUp, Bool.or_true, Bool.or_true]
  | @still answer htakes hwaiting hnext hgivesUp =>
    refine h.extend ?_ ?_ (fun hwaits => ?_) rfl ?_
    · rw [SessionEvent.grants, htakes, SessionAnswer.handsOver, hnext]
      rfl
    · rw [SessionEvent.releases, hnext]
      rfl
    · rw [SessionEvent.waits_eq_false hwaiting] at hwaits
      cases hwaits
    · rw [SessionEvent.announces, SessionEvent.waits_eq_false hwaiting, hgivesUp, Bool.or_false,
        Bool.or_false]

/-- A whole script is remembered. -/
theorem run [BEq ι] (h : a.Remembers past) (m : Manner) (steps : List (SessionStep ι)) :
    (a.run m steps).2.Remembers (past ++ Session.events steps (a.run m steps).1) := by
  induction steps generalizing a past with
  | nil =>
    have hnil : past ++ Session.events [] (a.run m []).1 = past := List.append_nil past
    rw [hnil]
    exact h
  | cons step steps ih =>
    have hrest := ih (h.snoc (effect_step m a step))
    rw [List.append_assoc] at hrest
    exact hrest

end Remembers

/-- A thread that starts to wait without a deadline says how often it has spun, and nobody else
does. -/
theorem spunBeforeSleep_step [BEq ι] (m : Manner) (a : Standing ι) (step : SessionStep ι) :
    (a.step m step).1.spunBeforeSleep =
      if step.isUntimed && (SessionEvent.mk step (a.step m step).1.answer).waits then
        m.spins a.announced
      else none := by
  have hlock : a.lockByCaller.1.spunBeforeSleep = none := by
    rw [lockByCaller]
    split <;> rfl
  have hattempt : ∀ otherwise : Standing ι, (a.attempt otherwise).1.spunBeforeSleep = none :=
    fun otherwise => by
      rw [attempt]
      split <;> rfl
  have htry : ∀ span clock, (a.tryUntil span clock).1.spunBeforeSleep = none :=
    fun span clock => by
      rw [tryUntil]
      split
      · rfl
      · exact hattempt _
  have harrive : ∀ (step : SessionStep ι) (id : ι) (spun : Option UInt64),
      (a.arrive id spun).1.spunBeforeSleep =
        if (SessionEvent.mk step (a.arrive id spun).1.answer).waits then spun else none :=
    fun step id spun => by
      rw [arrive]
      split <;> rfl
  cases step with
  | lock => exact hlock
  | tryLock => exact hattempt a
  | tryLockFor span clock =>
    rw [Standing.step]
    split
    · rw [tryFor]
      split
      · rfl
      · split
        · exact hlock
        · exact htry span clock
    · rfl
  | tryLockUntilNow clock =>
    rw [Standing.step]
    split
    · exact htry ⟨0⟩ clock
    · rfl
  | spawn id => exact harrive (.spawn id) id _
  | spawnFor id span start =>
    rw [Standing.step]
    split
    · rw [spawnFor, SessionStep.isUntimed]
      split
      · rw [SessionEvent.waits, Bool.and_false]
        rfl
      · cases (start.later? span).isNone with
        | true => exact harrive (.spawnFor id span start) id _
        | false =>
          simp only [Bool.false_eq_true, if_false, Bool.false_and]
          split
          · rfl
          · exact (harrive (.spawnFor id span start) id none).trans (ite_self _)
    · exact (if_neg (by rw [SessionEvent.waits, Bool.and_false]; decide)).symm
  | unlockFair | unwind =>
    rw [Standing.step]
    split <;> rfl
  | threadTryLock | unlock | look => rfl

/-- A thread waits only for a lock that somebody holds. -/
theorem Effect.locked_of_waits (h : Effect m a step reply a')
    (hwaits : (SessionEvent.mk step reply.answer).waits = true) : a.locked = true := by
  cases h with
  | take hfree htakes =>
    obtain ⟨-, hwaiting⟩ := SessionStep.next?_of_takes htakes
    exact absurd hwaits (ne_true_of_eq_false (SessionEvent.waits_eq_false hwaiting))
  | still htakes hwaiting hnext hgivesUp =>
    exact absurd hwaits (ne_true_of_eq_false (SessionEvent.waits_eq_false hwaiting))
  | wait hheld _ | handOn hheld _ | giveUp hheld _ => exact hheld

/-- What the word of a sleeping lock says of how it stands. -/
def word (a : Standing ι) : LockState :=
  if a.locked then if a.announced then .lockedHasWaiters else .lockedNoWaiters else .unlocked

theorem word_of_locked {a : Standing ι} (h : a.locked = true) :
    a.word = if a.announced then .lockedHasWaiters else .lockedNoWaiters :=
  if_pos h

theorem word_eq_unlocked_iff {a : Standing ι} : a.word = .unlocked ↔ a.locked = false := by
  cases hlocked : a.locked with
  | false =>
    rw [word, hlocked]
    exact iff_of_true rfl rfl
  | true =>
    rw [word_of_locked hlocked]
    refine iff_of_false ?_ Bool.false_ne_true.symm
    split <;> decide

/-- The word of a lock for which some thread waits. -/
theorem word_of_waiting {a : Standing ι} (ha : a.Sound) (h : a.waiting ≠ []) :
    a.word = .lockedHasWaiters := by
  have hheld : a.locked = true := by
    by_contra hfree
    exact h (ha.waiting (Bool.eq_false_iff.2 hfree))
  rw [word_of_locked hheld, ha.announced h, if_pos rfl]

theorem users_ne_zero {a : Standing ι} (h : a.locked = true) : a.users ≠ 0 := by
  obtain ⟨id, hholder⟩ := Option.isSome_iff_exists.1 h
  rw [users, hholder]
  exact Nat.ne_of_gt (Nat.add_pos_left Nat.one_pos _)

theorem state_view_of_locked {a : Standing ι} (h : a.locked = true)
    (hsleeps : m.sleepsAfter.isSome = true) : (a.view m).state = some a.word := by
  rw [view, Manner.view, hsleeps, if_pos rfl, if_neg (users_ne_zero h), word_of_locked h]

theorem state_view {a : Standing ι} (ha : a.Sound) (hsleeps : m.sleepsAfter.isSome = true) :
    (a.view m).state = some a.word := by
  cases hlocked : a.locked with
  | true => exact state_view_of_locked hlocked hsleeps
  | false =>
    have husers : a.users = 0 := by
      rw [users, ha.waiting hlocked,
        Option.not_isSome_iff_eq_none.1 (Bool.eq_false_iff.1 hlocked)]
      rfl
    rw [view, Manner.view, hsleeps, if_pos rfl, if_pos husers, word, hlocked]
    rfl

/-- A thread that waits for a sleeping lock spins before it goes to sleep if the word says that
nobody waits. -/
theorem spins_of_locked {a : Standing ι} (h : a.locked = true) :
    Primitive.futex.manner.spins a.announced =
      some (if a.word = .lockedNoWaiters then 100 else 0) := by
  rw [word_of_locked h]
  cases a.announced <;> rfl

end Standing

namespace Mutex

/-- **The word remembers the tenure.** After any steps on a new sleeping lock, its word says unlocked
exactly if nobody holds it. If somebody does, there is the last event by which somebody got the lock,
after which it was neither taken nor given back; the word says "has waiters" exactly if that event
handed the lock over to a thread that waited, or since then a thread started to wait or an attempt
gave up whose first look at the clock had left it time for a round. So it says "has waiters" whenever
a thread waits. A thread that starts to wait without a deadline says that it has spun 100 times if the
word said that nobody waits, and else that it has not; and it has not if another thread has started to
wait since the last release. -/
theorem word_tells_history [BEq ι] (caller : ι) (steps : List (SessionStep ι)) :
    let ran := (Session.new caller : Session raw ι).run steps
    let s := ran.2
    let events := Session.events steps ran.1
    let word := Mutex.state s.lock
    (word = .unlocked ↔ s.holder = none) ∧
      (s.holder ≠ none → ∃ before grant tenure, events = before ++ grant :: tenure ∧
        grant.grants = true ∧ (∀ e ∈ tenure, e.grants = false ∧ e.releases = false) ∧
        word = if grant.answer.handsOver || tenure.any SessionEvent.announces then
          .lockedHasWaiters else .lockedNoWaiters) ∧
      (s.waiting ≠ [] → word = .lockedHasWaiters) ∧
      ∀ step : SessionStep ι,
        let reply := (s.step step).1
        let waits := step.isUntimed && (SessionEvent.mk step reply.answer).waits
        reply.spunBeforeSleep =
            (if waits then some (if word = .lockedNoWaiters then 100 else 0) else none) ∧
          ∀ before w between, events = before ++ w :: between → w.waits = true →
            (∀ e ∈ between, e.releases = false) → waits = true →
              reply.spunBeforeSleep = some 0 := by
  intro ran s events word
  obtain ⟨hresults, drawn, htracks⟩ := Primitive.futex.tracks_run caller steps nofun
  have hsound := Standing.sound_run (Standing.sound_new caller) Primitive.futex.manner steps
  have hremembers := (Standing.remembers_new caller).run Primitive.futex.manner steps
  rw [← hresults] at hremembers
  -- the session is known by how its lock stands from here on
  generalize ((Standing.new caller).run Primitive.futex.manner steps).2 = a at *
  have hremembers : a.Remembers events := hremembers
  have hlocked : a.locked = s.holder.isSome := htracks.locked_eq
  have hword : word = a.word :=
    Option.some.inj ((congrArg View.state htracks.view_eq).trans (Standing.state_view hsound rfl))
  refine ⟨?_, fun hholder => ?_, fun hwaiting => ?_, ?_⟩
  · rw [hword, Standing.word_eq_unlocked_iff, hlocked, Option.isSome_eq_false_iff,
      Option.isNone_iff_eq_none]
  · have hheld : a.locked = true := hlocked.trans (Option.isSome_iff_ne_none.2 hholder)
    obtain ⟨before, grant, tenure, hevents, hgrant, hkept, hknown⟩ := hremembers.tenure hheld
    refine ⟨before, grant, tenure, hevents, hgrant, hkept, ?_⟩
    rw [hword, Standing.word_of_locked hheld, hknown]
  · rw [hword]
    refine Standing.word_of_waiting hsound fun hnone => hwaiting (List.length_eq_zero_iff.1 ?_)
    exact htracks.length_waiting.symm.trans (congrArg List.length hnone)
  · intro step reply waits
    have hreply : reply = (a.step Primitive.futex.manner step).1 :=
      (htracks.step (Primitive.futex.room nofun) step).reply
    have hspun := Standing.spunBeforeSleep_step Primitive.futex.manner a step
    rw [← hreply] at hspun
    refine ⟨?_, fun before w between hevents hwaits hkept hlate => ?_⟩
    · cases hlate : waits with
      | false => exact hspun.trans (if_neg (ne_true_of_eq_false hlate))
      | true =>
        have hheld : a.locked = true := by
          refine (Standing.effect_step Primitive.futex.manner a step).locked_of_waits ?_
          rw [← hreply]
          exact (Bool.and_eq_true_iff.1 hlate).2
        refine hspun.trans ((if_pos hlate).trans ?_)
        rw [Standing.spins_of_locked hheld, hword]
        rfl
    · obtain ⟨-, hknown⟩ := hremembers.wait hevents hwaits hkept
      refine hspun.trans ((if_pos hlate).trans ?_)
      rw [hknown]
      rfl

/-- While the caller holds the lock two threads start to wait. The word says so after the first one,
and the second one does not spin. -/
theorem word_tells_history_two :
    let steps : List (SessionStep Nat) := [.lock, .spawn 1]
    let s := ((Session.new 0 : Session raw Nat).run steps).2
    s.holder ≠ none ∧ s.waiting ≠ [] ∧ Mutex.state s.lock = .lockedHasWaiters ∧
      (s.step (.spawn 2)).1.spunBeforeSleep = some 0 := by
  intro steps s
  have hwaits : s.waiting ≠ [] := List.cons_ne_nil _ _
  obtain ⟨-, -, hwaiting, hspun⟩ := word_tells_history 0 steps
  refine ⟨nofun, hwaits, hwaiting hwaits, ?_⟩
  exact (hspun (.spawn 2)).2 [⟨.lock, .got true⟩] ⟨.spawn 1, .waiting⟩ [] rfl rfl nofun rfl

/-- The lock is held, and an attempt for a nanosecond first looks at the clock when the nanosecond is
over. It gives up, but no word says so: the lock stands as if nobody had tried. -/
theorem late_attempt_not_announced :
    let late : SessionStep Nat := .tryLockFor ⟨1⟩ ⟨.zero, [⟨1⟩]⟩
    let ran := (Session.new 0 : Session raw Nat).run [.lock, late]
    ran.2.holder ≠ none ∧
      Session.events [.lock, late] ran.1 = [⟨.lock, .got true⟩, ⟨late, .got false⟩] ∧
      Mutex.state ran.2.lock = .lockedNoWaiters := by
  refine ⟨nofun, rfl, rfl⟩

end Mutex

end Handoff
