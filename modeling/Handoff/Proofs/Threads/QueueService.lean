import Handoff.Proofs.Threads.Line

/-!
# The queue lock does not keep everybody waiting

What is known of the line of threads is what the users of the queue lock rely on
(`QueueLock.service`). The number of calls does not matter.

If nobody owns the lock and there is a line, its first thread never has to wait: it marks itself as
the owner or is marked already, or it is giving the lock back, and then the link to its successor is
there. If there is no line, whoever joins next is the first one, as long as there is a place for its
node (`QueueLock.promptService`).
-/

namespace Handoff.QueueLock

/-! ### Stages -/

/-- What a thread at a point does with the lock. Calls of `tryLock` are elsewhere. -/
def Point.stage : Point → Stage
  | .idle => .away
  | .joining | .marking _ | .waiting _ => .taking
  | .holding _ => .owning
  | .releasing _ | .awaiting _ | .handing _ _ => .returning
  | .trying => .elsewhere

theorem Point.stage_eq_away_iff {p : Point} : p.stage = .away ↔ p = .idle := by
  cases p <;> simp [stage]

theorem Point.stage_eq_owning_iff {p : Point} : p.stage = .owning ↔ ∃ a, p = .holding a := by
  cases p <;> simp [stage]

/-- A thread with a call under way has a node, or is about to join. -/
theorem Point.joining_or_node {p : Point} (h : p.stage.inCall = true) :
    p = .joining ∨ ∃ a, p.node? = some a := by
  cases p with
  | joining => exact .inl rfl
  | marking a | waiting a | releasing a | awaiting a | handing a b => exact .inr ⟨a, rfl⟩
  | _ => exact nomatch h

/-- A call goes on from one stage to the next. -/
theorem next_access (choice : Choice) {l : QueueLock} {p : Point} (hcall : p.stage.inCall = true) :
    Stage.Next p.stage (access choice l p).2.stage := by
  cases p with
  | joining =>
    rw [access]
    split
    · exact .stay
    · split <;> exact .stay
  | marking a => exact .enter
  | waiting a =>
    rw [access]
    split
    · exact .enter
    · exact .stay
  | releasing a =>
    rw [access]
    split
    · exact .finish
    · exact .stay
  | awaiting a =>
    rw [access]
    split <;> exact .stay
  | handing a b => exact .finish
  | _ => cases hcall

/-! ### Service -/

section Run

variable {ι : Type}

theorem code_idle_iff {p : Point} : (code ι).idle p = true ↔ p = .idle := decide_eq_true_iff

theorem code_owns_iff {p : Point} : (code ι).owns p = true ↔ p.stage = .owning := by
  cases p <;> simp [code, Point.stage]

theorem stage_unlockEntry {p : Point} (h : p.stage = .owning) :
    Point.stage ((code ι).unlockEntry p) = .returning := by
  obtain ⟨a, rfl⟩ := Point.stage_eq_owning_iff.1 h
  rfl

variable [DecidableEq ι]

/-- The queue lock serves its users. -/
def service : (code ι).Service where
  stage := Point.stage
  Sound _ := InLine
  away_iff := Point.stage_eq_away_iff
  idle_iff := code_idle_iff
  owns_iff := code_owns_iff
  broken _ := rfl
  lockEntry := rfl
  unlockEntry := stage_unlockEntry
  start := inLine_start
  begin h ht _ :=
    Program.moveTo_of_move (h.move (_, Choice.lock)) (Point.stage_eq_away_iff.1 ht) rfl
  leave {n s t} h ht := by
    obtain ⟨a, hp⟩ : ∃ a, s.point t = .holding a := Point.stage_eq_owning_iff.1 ht
    rw [hp]
    exact Program.moveTo_of_move (h.move (t, Choice.unlock)) hp rfl
  access h _ _ := h.move _
  next {n s} h {m} hm := by
    rw [Program.move_point_self]
    exact next_access m.2 hm
  unique {n s t u} h ht hu := by
    obtain ⟨owner, line, h⟩ := h
    obtain ⟨a, ht⟩ := Point.stage_eq_owning_iff.1 ht
    obtain ⟨b, hu⟩ := Point.stage_eq_owning_iff.1 hu
    exact h.eq_of_holding ht hu

end Run

/-! ### Promptness -/

section Due

variable {ι : Type} {l : QueueLock} {point : ι → Point} {t : ι}

/-- Whether a thread is so many accesses away from the one that ends its stage, or from one after
which some thread is nearer to that. -/
inductive Due (l : QueueLock) (point : ι → Point) (t : ι) : Nat → Prop
  | join (hp : point t = .joining) (hnone : ∀ u, (point u).stage ≠ .owning) : Due l point t 3
  | mark {a : Address} (hp : point t = .marking a) : Due l point t 0
  | enter {a : Address} (hp : point t = .waiting a) (howns : l.owns a = true) : Due l point t 0
  | release {a : Address} (hp : point t = .releasing a) : Due l point t 2
  | await {a : Address} (hp : point t = .awaiting a) : Due l point t 1
  | hand {a b : Address} (hp : point t = .handing a b) : Due l point t 0

theorem Due.inCall {k : Nat} (h : Due l point t k) : (point t).stage.inCall = true := by
  cases h with
  | join hp _ | mark hp | enter hp _ | release hp | await hp | hand hp => rw [hp]; rfl

/-- The first thread of a line does not have to wait. -/
theorem Lined.exists_due_head {owner : Bool} {a : Address} {line : List (ι × Address)}
    (h : Lined l point owner ((t, a) :: line)) (hnone : (point t).stage ≠ .owning) :
    ∃ k, k < 3 ∧ Due l point t k := by
  have hhead : AtHead owner (a :: line.map Prod.snd) (point t) := h.head t a rfl
  have howns : l.owns a = owner := by
    rw [h.isLine.owns_cons, decide_eq_true rfl, Bool.true_and]
  generalize hp : point t = p at hhead hnone
  generalize line.map Prod.snd = nodes at hhead
  cases hhead with
  | marking => exact ⟨0, by decide, .mark hp⟩
  | waiting => exact ⟨0, by decide, .enter hp howns⟩
  | holding => exact absurd rfl hnone
  | releasing => exact ⟨2, by decide, .release hp⟩
  | awaiting => exact ⟨1, by decide, .await hp⟩
  | handing => exact ⟨0, by decide, .hand hp⟩

/-- If some thread has a node and nobody owns the lock, somebody does not have to wait. -/
theorem Lined.exists_due_of_node {owner : Bool} {a : Address} {line : List (ι × Address)}
    (h : Lined l point owner line) (ha : (point t).node? = some a)
    (hnone : ∀ u, (point u).stage ≠ .owning) : ∃ u k, k < 3 ∧ Due l point u k := by
  have hmem := (h.mem_iff t a).2 ha
  cases line with
  | nil => exact nomatch hmem
  | cons first line => exact ⟨first.1, h.exists_due_head (hnone first.1)⟩

theorem Lined.exists_due {owner : Bool} {line : List (ι × Address)} (h : Lined l point owner line)
    (hnone : ∀ u, (point u).stage ≠ .owning) (hcall : (point t).stage.inCall = true) :
    ∃ u k, Due l point u k := by
  rcases Point.joining_or_node hcall with hp | ⟨a, ha⟩
  · exact ⟨t, 3, .join hp hnone⟩
  · obtain ⟨u, k, -, hdue⟩ := h.exists_due_of_node ha hnone
    exact ⟨u, k, hdue⟩

/-- A release that does not take the tail back looks for the successor. -/
theorem access_releasing {choice : Choice} {a : Address}
    (hstage : (access choice l (.releasing a)).2.stage = .returning) :
    access choice l (.releasing a) = (l, .awaiting a) := by
  by_cases htail : l.tail = some a
  · rw [access, swapTail, if_pos htail] at hstage
    cases hstage
  · rw [access, swapTail, if_neg htail]

/-- The first thread of a line that looks for its successor finds it. -/
theorem AtHead.exists_successor {owner : Bool} {a : Address} {nodes : List Address}
    (h : AtHead owner (a :: nodes) (.awaiting a)) (hline : IsLine owner l (a :: nodes)) :
    ∃ b, l.successor? a = some b := by
  cases h with
  | @awaiting _ b nodes => exact ⟨b, hline.successor?_head⟩

/-- The owner stays the owner while another thread makes an access that does not end its stage. -/
theorem IsLine.owns_access {owner : Bool} {nodes : List Address} {a : Address} {p : Point}
    {choice : Choice} (h : IsLine owner l nodes) (hcall : p.stage.inCall = true)
    (hstage : (QueueLock.access choice l p).2.stage = p.stage) (howns : l.owns a = true) :
    (QueueLock.access choice l p).1.owns a = true := by
  cases p with
  | joining =>
    rcases h.access_apart (p := .joining) rfl choice with ⟨hl, -⟩ | ⟨rfl, -⟩ | ⟨hsome, b, hline, -⟩
    · rw [hl]
      exact howns
    · rw [owns, h.heap] at howns
      cases howns
    · obtain ⟨first, rest, rfl⟩ := List.exists_cons_of_ne_nil hsome
      rw [List.cons_append] at hline
      rw [hline.owns_cons, ← h.owns_cons]
      exact howns
  | marking b => cases hstage
  | waiting b => exact howns
  | releasing b =>
    rw [access_releasing hstage]
    exact howns
  | awaiting b =>
    rw [access]
    split <;> exact howns
  | handing b c => cases hstage
  | _ => cases hcall

/-- A thread for whose node there is a place joins. -/
theorem node?_access_joining {choice : Choice} {a : Address} (h : choice.place? l = some a) :
    (access choice l .joining).2.node? = some a := by
  simp only [access, h]
  split <;> rfl

variable [DecidableEq ι] {k : Nat} {choice : Choice} {owner : Bool} {line : List (ι × Address)}

/-- A thread stays as near while another one makes an access that does not end its stage. -/
theorem Due.access_other {u : ι} (h : Due l point u k) (hlined : Lined l point owner line)
    (hne : u ≠ t) (hcall : (point t).stage.inCall = true)
    (hstage : (access choice l (point t)).2.stage = (point t).stage) :
    Due (access choice l (point t)).1
      (Function.update point t (access choice l (point t)).2) u k := by
  have hpoint : Function.update point t (access choice l (point t)).2 u = point u :=
    Function.update_of_ne hne _ _
  cases h with
  | join hp hnone =>
    refine .join (hpoint.trans hp) ?_
    exact (Function.forall_update_iff point fun _ p => p.stage ≠ .owning).2
      ⟨hstage ▸ hnone t, fun v _ => hnone v⟩
  | mark hp => exact .mark (hpoint.trans hp)
  | enter hp howns => exact .enter (hpoint.trans hp) (hlined.isLine.owns_access hcall hstage howns)
  | release hp => exact .release (hpoint.trans hp)
  | await hp => exact .await (hpoint.trans hp)
  | hand hp => exact .hand (hpoint.trans hp)

/-- An access that does not end the stage of its thread brings some thread nearer to that. -/
theorem Due.access_self (h : Due l point t k) (hlined : Lined l point owner line)
    (huse : (choice.place? l).isSome) (hstage : (access choice l (point t)).2.stage = (point t).stage) :
    ∃ u k', k' < k ∧ Due (access choice l (point t)).1
      (Function.update point t (access choice l (point t)).2) u k' := by
  have hself : Function.update point t (access choice l (point t)).2 t =
    (access choice l (point t)).2 := Function.update_self ..
  cases h with
  | join hp hnone =>
    -- the thread has a node now
    obtain ⟨a, hplace⟩ := Option.isSome_iff_exists.1 huse
    obtain ⟨owner', line', hafter⟩ := hlined.access t choice
    have hnode : (Function.update point t (access choice l (point t)).2 t).node? = some a := by
      rw [hself, hp]
      exact node?_access_joining hplace
    refine hafter.exists_due_of_node hnode ?_
    exact (Function.forall_update_iff point fun _ p => p.stage ≠ .owning).2
      ⟨hstage ▸ hnone t, fun v _ => hnone v⟩
  | mark hp =>
    rw [hp] at hstage
    cases hstage
  | enter hp howns =>
    rw [hp, access, if_pos howns] at hstage
    cases hstage
  | release hp =>
    rw [hp] at hself hstage ⊢
    rw [access_releasing hstage] at hself ⊢
    exact ⟨t, 1, by decide, .await hself⟩
  | await hp =>
    obtain ⟨rest, rfl, hhead⟩ :=
      hlined.exists_eq_cons (congrArg Point.node? hp) (by rw [hp]; simp)
    rw [hp] at hself hhead ⊢
    obtain ⟨b, hnext⟩ := hhead.exists_successor hlined.isLine
    rw [access, hnext] at hself ⊢
    exact ⟨t, 0, by decide, .hand hself⟩
  | hand hp =>
    rw [hp] at hstage
    cases hstage

/-- The queue lock does not keep everybody waiting. -/
def promptService : (code ι).PromptService where
  toService := service
  OfUse l choice := (Choice.place? l choice).isSome
  Ready s t k := Due s.memory s.point t k
  inCall h := h.inCall
  exists_ready h hnone ht := by
    obtain ⟨owner, line, h⟩ := h
    exact h.exists_due hnone ht
  ready_other {n s m t k} h hready hne hm hstage := by
    obtain ⟨owner, line, h⟩ := h
    rw [Program.move_point_self] at hstage
    rw [Program.move_point_eq_update]
    exact hready.access_other h hne.symm hm hstage
  ready_self {n s m k} h huse hready hstage := by
    obtain ⟨owner, line, h⟩ := h
    rw [Program.move_point_self] at hstage
    rw [Program.move_point_eq_update]
    exact hready.access_self h huse hstage

end Due

end Handoff.QueueLock
