import Handoff.Proofs.Threads.Exclusion
import Handoff.Proofs.Threads.Service
import Handoff.Threads.Flag

/-!
# The owner of the flag lock

A thread owns the flag lock from the swap by which it raised the flag up to the write by which it
lowers it. So the flag is up exactly while some thread owns the lock, there is no second owner, and
no release finds the flag down (`FlagLock.Owned`).

A thread that waits is at most two accesses away from the lock once the flag is down: it looks, and
swaps. Only a swap that fails for no reason sends it back (`FlagLock.promptService`), and not far:
the look that follows finds the flag down and costs no spin (`FlagLock.raised_by_owner`).
-/

namespace Handoff.FlagLock

/-! ### Accesses -/

/-- Whether a thread at a point owns the lock. -/
def Point.isOwner : Point → Bool
  | .holding | .checking | .lowering => true
  | _ => false

section Access

variable {l : FlagLock} {p : Point}

/-- An access raises the flag for its thread, or lowers it if the thread owns the lock, or leaves
both alone. -/
theorem handover_access (choice : Choice) (hp : p.isOwner = true → l.raised = true) :
    Program.Handover (!l.raised) p.isOwner (!(access choice l p).1.raised)
      (access choice l p).2.isOwner := by
  obtain ⟨raised⟩ := l
  cases p with
  | idle => cases choice <;> exact .keep
  | swapping w =>
    rw [access]
    split
    · exact .keep
    · cases raised with
      | true => exact .keep
      | false => exact .take
  | watching w => cases raised <;> exact .keep
  | trying =>
    cases raised with
    | true => exact .keep
    | false => exact .take
  | holding =>
    rw [access]
    split <;> exact .keep
  | checking =>
    obtain rfl : raised = true := hp rfl
    exact .keep
  | lowering =>
    obtain rfl : raised = true := hp rfl
    exact .giveUp
  | broken => exact .keep

/-- The check of a release fails only if the flag is down. -/
theorem access_ne_broken (choice : Choice) (hp : p ≠ .broken)
    (hchecks : p = .checking → l.raised = true) : (access choice l p).2 ≠ .broken := by
  obtain ⟨raised⟩ := l
  cases p with
  | idle => cases choice <;> exact nofun
  | swapping w =>
    rw [access]
    split
    · exact nofun
    · cases raised <;> exact nofun
  | watching w => cases raised <;> exact nofun
  | trying => cases raised <;> exact nofun
  | holding =>
    rw [access]
    split <;> exact nofun
  | checking =>
    obtain rfl : raised = true := hchecks rfl
    exact nofun
  | lowering => exact nofun
  | broken => exact absurd rfl hp

end Access

/-! ### Every schedule -/

section Run

variable {ι : Type}

/-- The flag is up exactly if some thread owns the lock, there is no second one, and no release has
found the flag down. -/
structure Owned (s : (code ι).State) : Prop where
  exclusive : Program.Exclusive (fun l : FlagLock => !l.raised) Point.isOwner s
  unbroken : ∀ t, s.point t ≠ .broken

namespace Owned

variable {s : (code ι).State} {t : ι}

theorem start : Owned (Program.start (code ι).toProgram) where
  exclusive := .start rfl rfl
  unbroken _ := nofun

/-- The flag is up while some thread owns the lock. -/
theorem raised (h : Owned s) (ht : (s.point t).isOwner = true) : s.memory.raised = true := by
  by_contra hdown
  have hfree : (!s.memory.raised) = true := by rw [Bool.eq_false_iff.2 hdown, Bool.not_false]
  exact absurd ((h.exclusive.free_iff.1 hfree t).symm.trans ht) Bool.false_ne_true

theorem raised_iff (h : Owned s) : s.memory.raised = true ↔ ∃ t, (s.point t).isOwner = true := by
  constructor
  · intro hup
    by_contra hnone
    have hfree := h.exclusive.free_iff.2 fun t => Bool.eq_false_iff.2 fun ht => hnone ⟨t, ht⟩
    rw [hup] at hfree
    exact nomatch hfree
  · rintro ⟨t, ht⟩
    exact h.raised ht

variable [DecidableEq ι]

theorem move (h : Owned s) (m : (code ι).Move) : Owned (Program.move s m) where
  exclusive := by
    refine h.exclusive.move ?_
    rw [Program.move_point_self]
    exact handover_access m.2 fun hp => h.raised hp
  unbroken t := by
    rcases eq_or_ne t m.1 with rfl | hne
    · rw [Program.move_point_self]
      refine access_ne_broken m.2 (h.unbroken m.1) fun hp => ?_
      exact h.raised (congrArg Point.isOwner hp)
    · rw [Program.move_point_of_ne s hne]
      exact h.unbroken t

theorem run (h : Owned s) (schedule : List (code ι).Move) : Owned (Program.run s schedule) :=
  Program.run_of_step (fun _ m hs => hs.move m) h schedule

end Owned

/-! ### Service -/

/-- What a thread at a point does with the lock. -/
def Point.stage : Point → Stage
  | .idle => .away
  | .swapping _ | .watching _ => .taking
  | .holding => .owning
  | .checking | .lowering => .returning
  | .trying | .broken => .elsewhere

theorem Point.stage_eq_away_iff {p : Point} : p.stage = .away ↔ p = .idle := by
  cases p <;> simp [stage]

theorem Point.stage_eq_owning_iff {p : Point} : p.stage = .owning ↔ p = .holding := by
  cases p <;> simp [stage]

/-- A call goes on from one stage to the next, and its release does not panic. -/
theorem next_access (choice : Choice) {l : FlagLock} {p : Point}
    (hp : p.isOwner = true → l.raised = true) (hcall : p.stage.inCall = true) :
    Stage.Next p.stage (access choice l p).2.stage := by
  obtain ⟨raised⟩ := l
  cases p with
  | swapping w =>
    rw [access]
    split
    · exact .stay
    · cases raised with
      | true => exact .stay
      | false => exact .enter
  | watching w => cases raised <;> exact .stay
  | checking =>
    obtain rfl : raised = true := hp rfl
    exact .stay
  | lowering => exact .finish
  | _ => exact nomatch hcall

theorem code_idle_iff {p : Point} : (code ι).idle p = true ↔ p = .idle := decide_eq_true_iff

theorem code_owns_iff {p : Point} : (code ι).owns p = true ↔ p = .holding := decide_eq_true_iff

theorem code_broken_eq_false {p : Point} (h : p.stage ≠ .elsewhere) :
    (code ι).broken p = false :=
  decide_eq_false fun hp => h (congrArg Point.stage hp)

variable [DecidableEq ι]

/-- The flag lock serves its users. -/
def service : (code ι).Service where
  stage := Point.stage
  Sound _ := Owned
  away_iff := Point.stage_eq_away_iff
  idle_iff := code_idle_iff
  owns_iff := code_owns_iff.trans Point.stage_eq_owning_iff.symm
  broken := code_broken_eq_false
  lockEntry := rfl
  unlockEntry _ := rfl
  start := .start
  begin h ht _ :=
    Program.moveTo_of_move (h.move (_, Choice.lock)) (Point.stage_eq_away_iff.1 ht) rfl
  leave {n s t} h ht := by
    have hp : s.point t = .holding := Point.stage_eq_owning_iff.1 ht
    rw [hp]
    exact Program.moveTo_of_move (h.move (t, Choice.unlock)) hp rfl
  access h _ _ := h.move _
  next {n s} h {m} hm := by
    rw [Program.move_point_self]
    exact next_access m.2 h.raised hm
  unique {n s t u} h ht hu := by
    have howns : ∀ {v}, (s.point v).stage = .owning → (s.point v).isOwner = true := fun hv =>
      congrArg Point.isOwner (Point.stage_eq_owning_iff.1 hv)
    exact h.exclusive.unique (howns ht) (howns hu)

/-! ### Promptness -/

/-- The number of accesses that a thread at a point makes before the one that ends its stage, if
that is certain. -/
def Point.due? (l : FlagLock) : Point → Option Nat
  | .swapping _ => if l.raised then none else some 0
  | .watching _ => if l.raised then none else some 1
  | .checking => some 1
  | .lowering => some 0
  | _ => none

theorem Point.inCall_of_due? {l : FlagLock} {p : Point} {k : Nat} (h : p.due? l = some k) :
    p.stage.inCall = true := by
  cases p with
  | swapping w | watching w | checking | lowering => rfl
  | _ => exact nomatch h

/-- An owner that gives the lock back does so in one or two accesses. -/
theorem Point.exists_due?_of_isOwner (l : FlagLock) {p : Point} (hp : p.isOwner = true)
    (hstage : p.stage ≠ .owning) : ∃ k, p.due? l = some k := by
  cases p with
  | holding => exact absurd rfl hstage
  | checking | lowering => exact ⟨_, rfl⟩
  | _ => exact nomatch hp

theorem Point.exists_due?_of_down {l : FlagLock} {p : Point} (hdown : l.raised = false)
    (hcall : p.stage.inCall = true) : ∃ k, p.due? l = some k := by
  obtain rfl : l = ⟨false⟩ := congrArg FlagLock.mk hdown
  cases p with
  | swapping w | watching w | checking | lowering => exact ⟨_, rfl⟩
  | _ => exact nomatch hcall

/-- A thread that waits for the flag to go down is certain of its next stage once it is. -/
theorem Point.due?_of_down {l l' : FlagLock} {p : Point} {k : Nat} (h : p.due? l = some k)
    (hdown : l.raised = false → l'.raised = false) : p.due? l' = some k := by
  obtain ⟨raised⟩ := l
  cases raised with
  | true =>
    cases p with
    | checking | lowering => exact h
    | _ => exact nomatch h
  | false =>
    obtain rfl : l' = ⟨false⟩ := congrArg FlagLock.mk (hdown rfl)
    exact h

/-- The flag stays down while nobody gets to another stage. -/
theorem access_raised_eq_false (choice : Choice) {l : FlagLock} {p : Point}
    (hcall : p.stage.inCall = true) (hstage : (access choice l p).2.stage = p.stage)
    (hdown : l.raised = false) : (access choice l p).1.raised = false := by
  obtain rfl : l = ⟨false⟩ := congrArg FlagLock.mk hdown
  cases p with
  | swapping w =>
    by_cases hspurious : choice = .failSpuriously
    · rw [access, if_pos hspurious]
    · rw [access, if_neg hspurious] at hstage
      exact nomatch hstage
  | watching w => rfl
  | checking => rfl
  | lowering => rfl
  | _ => exact nomatch hcall

/-- An access that is of use and does not end the stage of a call brings its end nearer. -/
theorem due?_access {choice : Choice} {l : FlagLock} {p : Point} {k : Nat}
    (huse : choice ≠ .failSpuriously) (hdue : p.due? l = some k)
    (hstage : (access choice l p).2.stage = p.stage) :
    ∃ k', k' < k ∧ (access choice l p).2.due? (access choice l p).1 = some k' := by
  obtain ⟨raised⟩ := l
  cases p with
  | swapping w =>
    cases raised with
    | true => exact nomatch hdue
    | false =>
      rw [access, if_neg huse] at hstage
      exact nomatch hstage
  | watching w =>
    cases raised with
    | true => exact nomatch hdue
    | false =>
      obtain rfl := Option.some.inj hdue
      exact ⟨0, Nat.one_pos, rfl⟩
  | checking =>
    cases raised with
    | true =>
      obtain rfl := Option.some.inj hdue
      exact ⟨0, Nat.one_pos, rfl⟩
    | false => exact nomatch hstage
  | lowering => exact nomatch hstage
  | _ => exact nomatch hdue

/-- The flag lock does not keep everybody waiting. -/
def promptService : (code ι).PromptService where
  toService := service
  OfUse _ choice := choice ≠ Choice.failSpuriously
  Ready s t k := Point.due? s.memory (s.point t) = some k
  inCall h := Point.inCall_of_due? h
  exists_ready {n s t} h hnone ht := by
    by_cases howned : ∃ u, Point.isOwner (s.point u) = true
    · obtain ⟨u, hu⟩ := howned
      exact ⟨u, Point.exists_due?_of_isOwner s.memory hu (hnone u)⟩
    · -- nobody owns the lock, so the flag is down
      have hdown : s.memory.raised = false := Bool.eq_false_iff.2 fun hup =>
        howned (h.raised_iff.1 hup)
      exact ⟨t, Point.exists_due?_of_down hdown ht⟩
  ready_other {n s m t k} h hready hne hm hstage := by
    rw [Program.move_point_of_ne s hne.symm]
    rw [Program.move_point_self] at hstage
    exact Point.due?_of_down hready (access_raised_eq_false m.2 hm hstage)
  ready_self {n s m k} h huse hready hstage := by
    rw [Program.move_point_self] at hstage
    obtain ⟨k', hlt, hdue⟩ := due?_access huse hready hstage
    refine ⟨m.1, k', hlt, ?_⟩
    rw [Program.move_point_self]
    exact hdue

/-! ### What the calls find -/

/-- A thread stays in `lock` without a trace until its own swap raises the flag. -/
theorem access_of_taking (choice : Choice) {l : FlagLock} {p : Point} (hp : p.stage = .taking) :
    (access choice l p).1 = l ∧ (access choice l p).2.stage = .taking ∨
      (∃ w, p = .swapping w) ∧ choice ≠ .failSpuriously ∧ l.raised = false ∧
        access choice l p = (⟨true⟩, .holding) := by
  obtain ⟨raised⟩ := l
  cases p with
  | swapping w =>
    by_cases hspurious : choice = .failSpuriously
    · rw [access, if_pos hspurious]
      exact .inl ⟨rfl, rfl⟩
    · rw [access, if_neg hspurious]
      cases raised with
      | true => exact .inl ⟨rfl, rfl⟩
      | false => exact .inr ⟨⟨w, rfl⟩, hspurious, rfl, rfl⟩
  | watching w => cases raised <;> exact .inl ⟨rfl, rfl⟩
  | _ => exact nomatch hp

/-- The swap of a thread that only tries fails if the flag is up, and for no other reason. -/
theorem access_trying (choice : Choice) (l : FlagLock) :
    access choice l .trying = if l.raised then (l, .idle) else (⟨true⟩, .holding) := by
  obtain ⟨raised⟩ := l
  cases raised <;> rfl

/-- A look that finds the flag down ends the loop of looks without a spin. -/
theorem access_watching_of_down (choice : Choice) {l : FlagLock} (w : SpinWait)
    (hdown : l.raised = false) : access choice l (.watching w) = (l, .swapping w) := by
  rw [access, if_neg (Bool.eq_false_iff.1 hdown)]

/-- **The flag is up exactly while some thread owns the lock.** After any schedule at most one
thread owns the lock, the flag is up exactly if one does, and no release has found the flag down.
Whatever access comes next:

* It raises the flag for its own thread, or lowers the flag that its own thread had raised, or does
  neither.
* A thread in `lock` changes nothing as long as it is there. It leaves with the lock, by a swap of
  its own that does not fail and that raises the flag.
* An attempt takes the lock by such a swap as well, or finds the flag up and changes nothing; its
  swap does not fail for no reason.
* If the swap of a thread in `lock` fails for no reason, and the flag is down at the look that
  follows, whatever other threads did in between, the thread swaps again without having spun. -/
theorem raised_by_owner (schedule : List (code ι).Move) (m : (code ι).Move) :
    let s := Program.run (Program.start (code ι).toProgram) schedule
    let s' := Program.move s m
    (∀ t u, (s.point t).isOwner = true → (s.point u).isOwner = true → t = u) ∧
      (s.memory.raised = true ↔ ∃ t, (s.point t).isOwner = true) ∧
      (∀ t, s.point t ≠ .broken) ∧
      Program.Handover (!s.memory.raised) (s.point m.1).isOwner (!s'.memory.raised)
        (s'.point m.1).isOwner ∧
      ((s.point m.1).stage = .taking →
        s'.memory = s.memory ∧ (s'.point m.1).stage = .taking ∨
          (∃ w, s.point m.1 = .swapping w) ∧ m.2 ≠ .failSpuriously ∧ s.memory.raised = false ∧
            s'.memory.raised = true ∧ s'.point m.1 = .holding) ∧
      (s.point m.1 = .trying →
        s.memory.raised = false ∧ s'.memory.raised = true ∧ s'.point m.1 = .holding ∨
          s.memory.raised = true ∧ s'.memory = s.memory ∧ s'.point m.1 = .idle) ∧
      (∀ w, s.point m.1 = .swapping w → m.2 = .failSpuriously → s'.memory = s.memory ∧
        ∀ (meanwhile : List (code ι).Move) (choice : (code ι).Choice),
          (∀ other ∈ meanwhile, other.1 ≠ m.1) →
          let looking := Program.run s' meanwhile
          let looked := Program.move looking (m.1, choice)
          looking.memory.raised = false →
            looked.memory = looking.memory ∧ looked.point m.1 = .swapping w) := by
  intro s s'
  have howned : Owned s := Owned.start.run schedule
  have hmemory : s'.memory = _ := Program.move_memory s m
  have hpoint : s'.point m.1 = _ := Program.move_point_self s m
  refine ⟨fun t u => howned.exclusive.unique, howned.raised_iff, howned.unbroken, ?_, ?_, ?_, ?_⟩
  · rw [hmemory, hpoint]
    exact handover_access m.2 howned.raised
  · intro htaking
    rw [hmemory, hpoint]
    obtain hstays | ⟨hswapping, hchoice, hdown, haccess⟩ := access_of_taking m.2 htaking
    · exact .inl hstays
    · exact .inr ⟨hswapping, hchoice, hdown, congrArg (fun after => after.1.raised) haccess,
        congrArg Prod.snd haccess⟩
  · intro htrying
    have haccess : (code ι).step m.1 m.2 s.memory (s.point m.1) =
        if s.memory.raised then (s.memory, .idle) else (⟨true⟩, .holding) := by
      rw [htrying]
      exact access_trying m.2 s.memory
    rw [haccess] at hmemory hpoint
    by_cases hup : s.memory.raised = true
    · rw [if_pos hup] at hmemory hpoint
      exact .inr ⟨hup, hmemory, hpoint⟩
    · rw [if_neg hup] at hmemory hpoint
      exact .inl ⟨Bool.eq_false_iff.2 hup, congrArg raised hmemory, hpoint⟩
  · intro w hswapping hspurious
    rw [hswapping, hspurious] at hmemory hpoint
    refine ⟨hmemory, fun meanwhile choice hothers => ?_⟩
    intro looking looked hdown
    have hlook : (code ι).step m.1 choice looking.memory (looking.point m.1) =
        (looking.memory, .swapping w) := by
      rw [Program.run_point_of_forall_ne s' hothers, hpoint]
      exact access_watching_of_down choice w hdown
    exact ⟨congrArg Prod.fst hlook,
      (Program.move_point_self looking (m.1, choice)).trans (congrArg Prod.snd hlook)⟩

/-- The first swap of a call fails for no reason. Before the look that follows, another thread takes
the lock and gives it back; the look costs no spin. -/
theorem raised_by_owner_after_spurious_failure :
    let passes : List (code Nat).Move :=
      [(1, .tryLock), (1, .proceed), (1, .unlock), (1, .proceed), (1, .proceed)]
    let swapping := Program.run (Program.start (code Nat).toProgram) [(0, .lock)]
    let looking := Program.run (Program.move swapping (0, .failSpuriously)) passes
    swapping.point 0 = .swapping .new ∧ (∀ other ∈ passes, other.1 ≠ 0) ∧
      looking.memory.raised = false ∧
      (Program.move looking (0, .proceed)).memory = looking.memory ∧
      (Program.move looking (0, .proceed)).point 0 = .swapping .new := by
  intro passes swapping looking
  have hothers : ∀ other ∈ passes, other.1 ≠ 0 := by decide
  obtain ⟨-, -, -, -, -, -, hfailed⟩ := raised_by_owner [(0, .lock)] (0, .failSpuriously)
  obtain ⟨-, hlook⟩ := hfailed .new rfl rfl
  exact ⟨rfl, hothers, rfl, hlook passes .proceed hothers rfl⟩

end Run

end Handoff.FlagLock
