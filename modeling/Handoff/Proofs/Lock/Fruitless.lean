import Handoff.Proofs.Lock.Effect
import Handoff.Proofs.Lock.Manners
import Handoff.Threads.Flag
import Handoff.Threads.Ticket
import Handoff.Threads.Mutex

/-!
# Fruitless steps leave no trace

Many steps come to nothing: an attempt on a held lock, a call that would block or is refused, a
release while nobody holds the lock, or a thread that takes the lock and gives it back at once. After
such a step the lock stands as before (`Standing.step_of_isFruitless`), although the counters of a
ticket lock may both have moved. Hence the other steps of a script cannot tell whether the fruitless
ones were taken at all (`fruitless_steps_leave_no_trace`).

That a release comes to nothing is found out by reading: it panics exactly if nobody holds the lock,
and before its first write (`Primitive.PanicsOnRelease`).
-/

namespace Handoff

variable {ι : Type} {m : Manner}

/-- Whether a step has come to nothing, according to its answer. A thread that tries and gives back
what it gets always does. An attempt for a span does if it has given up without a round: always if
the span is zero, and else if its first look at the clock was too late. -/
def SessionStep.isFruitless : SessionStep ι → SessionAnswer ι → Bool
  | .threadTryLock, _ => true
  | .tryLock, .got false | .tryLockUntilNow _, .got false => true
  | .tryLockFor span clock, .got false => !clock.leavesTime span
  | .unlock, .fault fault | .unlockFair, .fault fault => fault.saysUnheld
  | _, .wouldBlock | _, .refused | _, .notHeld => true
  | _, _ => false

namespace SessionStep

variable {step : SessionStep ι} {answer : SessionAnswer ι}

/-- Whatever the clock reads, an attempt for no time that gives up comes to nothing. -/
theorem isFruitless_tryLockFor_zero (clock : ClockReadings) :
    (tryLockFor ⟨0⟩ clock : SessionStep ι).isFruitless (.got false) = true := by
  rw [isFruitless, clock.leavesTime_zero]
  rfl

/-- A fruitless step neither takes the lock nor gives it back, and nobody starts to wait or gives up
after a while. -/
theorem idle_of_isFruitless (h : step.isFruitless answer = true) :
    step = .threadTryLock ∨ (step.takes answer = false ∧ answer ≠ .waiting ∧ answer.next? = none ∧
      step.givesUp answer = false) := by
  cases answer with
  | got success =>
    cases success with
    | true => cases step <;> first | exact .inl rfl | exact nomatch h
    | false =>
      cases step with
      | threadTryLock => exact .inl rfl
      | tryLockFor span clock =>
        have hlate : (!clock.leavesTime span) = true := h
        rw [Bool.not_eq_true'] at hlate
        exact .inr ⟨rfl, nofun, rfl, hlate⟩
      | _ => exact .inr ⟨rfl, nofun, rfl, rfl⟩
  | wouldBlock | refused | notHeld | fault f =>
    cases step <;> first | exact .inl rfl | exact .inr ⟨rfl, nofun, rfl, rfl⟩
  | _ => cases step <;> first | exact .inl rfl | exact nomatch h

end SessionStep

namespace Standing

variable {a a' : Standing ι} {step : SessionStep ι} {reply : Reply ι}

/-- If the answer tells of nothing that has been done, nothing has. -/
theorem Effect.eq_of_idle (h : Effect m a step reply a') (htakes : step.takes reply.answer = false)
    (hwaiting : reply.answer ≠ .waiting) (hnext : reply.answer.next? = none)
    (hgivesUp : step.givesUp reply.answer = false) : a' = a := by
  cases h with
  | take hfree htakes' => exact absurd (htakes.symm.trans htakes') Bool.false_ne_true
  | wait hheld hwaiter => exact absurd rfl hwaiting
  | handOn hheld hnext' => exact nomatch hnext.symm.trans hnext'
  | giveUp hheld hgivesUp' => exact absurd (hgivesUp.symm.trans hgivesUp') Bool.false_ne_true
  | still _ _ _ _ => rfl

/-- After a fruitless step the lock stands as before. -/
theorem step_of_isFruitless [BEq ι] (h : step.isFruitless (a.step m step).1.answer = true) :
    (a.step m step).2 = a := by
  rcases SessionStep.idle_of_isFruitless h with rfl | ⟨htakes, hwaiting, hnext, hgivesUp⟩
  · rfl
  · exact (effect_step m a step).eq_of_idle htakes hwaiting hnext hgivesUp

/-- Without some of the fruitless steps of a script, the others have the same replies and views, and
the lock stands in the end as it does. -/
theorem run_filter [BEq ι] (m : Manner) (a : Standing ι) (marked : List (SessionStep ι × Bool))
    (hfruitless : ∀ r ∈ marked.zip (a.run m (marked.map Prod.fst)).1, r.1.2 = false →
      r.1.1.isFruitless r.2.1.answer = true) :
    a.run m ((marked.filter Prod.snd).map Prod.fst) =
      (((marked.zip (a.run m (marked.map Prod.fst)).1).filter (·.1.2)).map Prod.snd,
        (a.run m (marked.map Prod.fst)).2) := by
  induction marked generalizing a with
  | nil => rfl
  | cons r marked ih =>
    obtain ⟨step, keep⟩ := r
    obtain ⟨hhead, htail⟩ := List.forall_mem_cons.1 hfruitless
    have hrest := ih (a.step m step).2 htail
    cases keep with
    | true => exact congrArg (fun ran => ((_, _) :: ran.1, ran.2)) hrest
    | false =>
      have hsame : (a.step m step).2 = a := step_of_isFruitless (hhead rfl)
      exact (congrArg (fun b => b.run m ((marked.filter Prod.snd).map Prod.fst)) hsame.symm).trans
        hrest

theorem length_run [BEq ι] (m : Manner) (a : Standing ι) (steps : List (SessionStep ι)) :
    (a.run m steps).1.length = steps.length := by
  induction steps generalizing a with
  | nil => rfl
  | cons step steps ih => exact congrArg (· + 1) (ih (a.step m step).2)

/-- What is left of the results when some of them are left out. -/
theorem kept_sublist {α β : Type} {marked : List (α × Bool)} {results : List β}
    (hlength : results.length ≤ marked.length) :
    (((marked.zip results).filter (·.1.2)).map Prod.snd).Sublist results := by
  have hall : (marked.zip results).map Prod.snd = results := List.map_snd_zip hlength
  have hkept := (List.filter_sublist (p := fun r : (α × Bool) × β => r.1.2)
    (l := marked.zip results)).map Prod.snd
  rwa [hall] at hkept

end Standing

/-- A part of a script draws no more passes than the whole. -/
theorem passesDrawn_le_of_sublist {results results' : List (Reply ι × View)}
    (h : results.Sublist results') : passesDrawn results ≤ passesDrawn results' := by
  induction h with
  | slnil => exact Nat.le_refl _
  | cons result _ ih => exact Nat.le_trans ih (Nat.le_add_left _ _)
  | cons_cons result _ ih => exact Nat.add_le_add_left ih _

/-! ### Releases while nobody holds the lock -/

/-- A release that panics leaves the session as it was. -/
theorem Session.unlock_of_fault {L : RawLock} {s : Session L ι} {fault : Fault}
    (h : s.unlock.1 = .fault fault) : s.unlock.2 = s := by
  rw [unlock] at h ⊢
  dsimp only at h ⊢
  split at h
  · rfl
  · rename_i call hcall
    cases hlock : call s.lock with
    | error fault => rfl
    | ok release =>
      rw [hlock] at h
      cases h

namespace Primitive

/-- Whether a release panics before its first write: access by access it only reads, and then
panics. -/
def PanicsOnRelease : (p : Primitive) → p.raw.State → Prop
  | .ttas, l => FlagLock.access .proceed l .checking = (l, .broken)
  | .ticket, l => ∀ ticket,
    TicketLock.access .proceed l (.checking ticket) = (l, .comparing ticket (TicketLock.owner l)) ∧
      TicketLock.access .proceed l (.comparing ticket (TicketLock.owner l)) = (l, .broken)
  | .mcs, _ => False
  | .futex, l => ∀ {κ : Type} [DecidableEq κ] (t : κ) (asleep : κ → Bool),
    Mutex.access t .proceed ⟨l, asleep⟩ .checking = (⟨l, asleep⟩, .broken)

/-- What a release reads tells it whether somebody is in the line. -/
theorem panicsOnRelease_iff {p : Primitive} (hp : p ≠ .mcs) {n : Nat} {l : p.raw.State}
    {line : List p.raw.Pass} (h : p.custody.Holds n l line) : p.PanicsOnRelease l ↔ line = [] := by
  cases p with
  | ttas =>
    have hraised : FlagLock.raised l = !line.isEmpty := h
    simp only [PanicsOnRelease, FlagLock.access, hraised]
    cases line with
    | nil => exact iff_of_true rfl rfl
    | cons pass line => exact iff_of_false nofun nofun
  | ticket =>
    have houtstanding := TicketLock.Serves.outstanding_eq h
    simp only [PanicsOnRelease, TicketLock.access, houtstanding]
    cases line with
    | nil => exact iff_of_true (fun _ => ⟨rfl, rfl⟩) rfl
    | cons ticket line => exact iff_of_false (fun h => nomatch (h 0).2) nofun
  | mcs => exact absurd rfl hp
  | futex =>
    obtain ⟨s, rfl, htells⟩ := h
    refine Iff.trans ?_ htells.unlocked_iff
    have haccess : ∀ {κ : Type} [DecidableEq κ] (t : κ) (asleep : κ → Bool),
        Mutex.access t .proceed ⟨Mutex.ofState s, asleep⟩ .checking =
          (⟨Mutex.ofState s, asleep⟩, if s = .unlocked then .broken else .releasing) := by
      intro κ _ t asleep
      rw [Mutex.access, Mutex.state_ofState]
    constructor
    · intro hpanics
      by_contra hlocked
      have hbroken := hpanics () fun _ => false
      rw [haccess, if_neg hlocked] at hbroken
      exact nomatch hbroken
    · rintro rfl κ _ t asleep
      exact haccess t asleep

end Primitive

namespace Conduct

variable {L : RawLock} {C : Custody L} {K : Conduct C m} {drawn : Nat} {s : Session L ι}
  {a : Standing ι}

/-- Where a release is possible without a pass, it panics exactly if nobody holds the lock. -/
theorem Tracks.unlock_fault_iff (h : K.Tracks drawn s a) (hunheld : m.unheld ≠ none) :
    (∃ fault, s.unlock.1 = .fault fault) ↔ s.holder = none := by
  have hlocked := h.locked_eq
  rw [h.unlock.1, Standing.unlock]
  obtain ⟨fault, hfault⟩ := Option.ne_none_iff_exists'.1 hunheld
  cases hholder : s.holder with
  | none =>
    rw [hholder, Option.isSome_none] at hlocked
    rw [hlocked, hfault]
    exact iff_of_true ⟨fault, rfl⟩ rfl
  | some w =>
    rw [hholder, Option.isSome_some] at hlocked
    rw [hlocked]
    refine iff_of_false ?_ (Option.some_ne_none w)
    rintro ⟨_, hanswer⟩
    cases hanswer

end Conduct

/-- **Fruitless steps leave no trace.** In a script on a new lock of any kind let some of those steps
that come to nothing be left out, namely those that are not marked. Then each of the others has the
same reply and the same view after it, what is said before a sleep included, and in the end the lock
is given back to the same threads. In every state that is reached a release panics exactly if nobody
holds the lock, for each kind that has such a release; it does so before its first write, and leaves
the session as it was. The tickets drawn must stay below the last number of a word. -/
theorem fruitless_steps_leave_no_trace [BEq ι] (p : Primitive) (caller : ι)
    (marked : List (SessionStep ι × Bool))
    (hfew : p = .ticket → ticketsDrawn caller (marked.map Prod.fst) < UInt64.size - 1) :
    let all := (Session.new caller : Session p.raw ι).run (marked.map Prod.fst)
    let kept := (Session.new caller : Session p.raw ι).run ((marked.filter Prod.snd).map Prod.fst)
    let s := all.2
    ((∀ r ∈ marked.zip all.1, r.1.2 = false → r.1.1.isFruitless r.2.1.answer = true) →
        kept.1 = ((marked.zip all.1).filter (·.1.2)).map Prod.snd ∧
          kept.2.drain.1 = all.2.drain.1) ∧
      (p ≠ .mcs →
        ((∃ fault, (s.step .unlock).1.answer = .fault fault) ↔ s.holder = none) ∧
          (p.PanicsOnRelease s.lock ↔ s.holder = none) ∧
          (s.holder = none → (s.step .unlock).2 = s)) := by
  intro all kept s
  obtain ⟨hresults, drawn, htracks⟩ := p.tracks_run caller (marked.map Prod.fst) hfew
  have hdrained := (htracks.drainWithin (Nat.lt_succ_self all.2.waiting.length)).1
  refine ⟨fun hfruitless => ?_, fun hp => ?_⟩
  · have hrun := Standing.run_filter p.manner (.new caller) marked (hresults ▸ hfruitless)
    -- the kept steps draw no more tickets than all of them do
    have hfew' : p = .ticket → min (ticketsDrawn caller ((marked.filter Prod.snd).map Prod.fst))
        (passesDrawn ((Standing.new caller).run p.manner
          ((marked.filter Prod.snd).map Prod.fst)).1) < UInt64.size - 1 := fun hp => by
      refine Nat.lt_of_le_of_lt (Nat.le_trans (Nat.min_le_right _ _) ?_) (hfew hp)
      have hlength := Standing.length_run p.manner (.new caller) (marked.map Prod.fst)
      rw [List.length_map] at hlength
      have hkept := passesDrawn_le_of_sublist (Standing.kept_sublist (Nat.le_of_eq hlength))
      rw [← hresults] at hkept
      rw [hrun, ← hresults]
      subst hp
      exact hkept
    obtain ⟨hresults', drawn', htracks'⟩ := p.tracks_run_of_min caller _ hfew'
    have hdrained' := (htracks'.drainWithin (Nat.lt_succ_self kept.2.waiting.length)).1
    rw [hrun] at hresults' hdrained'
    refine ⟨?_, hdrained'.trans hdrained.symm⟩
    rw [← hresults] at hresults'
    exact hresults'
  · have hunheld : p.manner.unheld ≠ none := by
      cases p with
      | mcs => exact absurd rfl hp
      | _ => exact nofun
    have hpanics := htracks.unlock_fault_iff hunheld
    refine ⟨hpanics, ?_, fun hfree => ?_⟩
    · obtain ⟨line, hholds, hline⟩ := htracks.exists_holds
      exact (Primitive.panicsOnRelease_iff hp hholds).trans hline
    · obtain ⟨fault, hfault⟩ := hpanics.2 hfree
      exact Session.unlock_of_fault hfault

/-- Six steps on a ticket lock that come to nothing are left out, and the other five are not
affected. -/
theorem fruitless_steps_leave_no_trace_six :
    let marked : List (SessionStep Nat × Bool) :=
      [(.unlock, false), (.threadTryLock, false), (.lock, true), (.spawn 1, true),
        (.tryLock, false), (.lock, false), (.unlockFair, true), (.unlock, true),
        (.unlockFair, false), (.threadTryLock, false), (.spawn 2, true)]
    let all := (Session.new 0 : Session TicketLock.raw Nat).run (marked.map Prod.fst)
    let kept := (Session.new 0 : Session TicketLock.raw Nat).run
      [.lock, .spawn 1, .unlockFair, .unlock, .spawn 2]
    ticketsDrawn 0 (marked.map Prod.fst) < UInt64.size - 1 ∧
      (∀ r ∈ marked.zip all.1, r.1.2 = false → r.1.1.isFruitless r.2.1.answer = true) ∧
      kept.1 = ((marked.zip all.1).filter (·.1.2)).map Prod.snd ∧ kept.2.drain.1 = all.2.drain.1 := by
  intro marked all kept
  have hfew : ticketsDrawn 0 (marked.map Prod.fst) < UInt64.size - 1 := by decide
  have hfruitless : ∀ r ∈ marked.zip all.1, r.1.2 = false →
      r.1.1.isFruitless r.2.1.answer = true := by decide
  obtain ⟨hkept, -⟩ := fruitless_steps_leave_no_trace .ticket 0 marked fun _ => hfew
  exact ⟨hfew, hfruitless, hkept hfruitless⟩

end Handoff
