import ReactiveTree.Proofs.Descent

/-!
Parts of a tree that rest. No node of such a part runs and none holds a task, and the second is
enough for both, since every running node is attended by a task in its part of the tree. A part that
holds no task hears no wake: resuming it changes nothing.
-/

namespace ReactiveTree

variable {H : Host}

def Live.Idle {tree : Tree H} (live : Live H tree) : Prop :=
  ∀ part ∈ live.parts, part.live.status ≠ .running

def LiveForest.Idle {trees : Forest H} (lives : LiveForest H trees) : Prop :=
  ∀ part ∈ lives.parts, part.live.status ≠ .running

theorem isRunning_iff {status : Status} : status.isRunning ↔ status = .running :=
  decide_eq_true_iff

theorem not_isRunning {status : Status} (still : status ≠ .running) : ¬ status.isRunning :=
  mt isRunning_iff.mp still

theorem ne_running {status : Status} (still : ¬ status.isRunning) : status ≠ .running :=
  mt isRunning_iff.mpr still

section Idleness

variable {tree : Tree H} {trees : Forest H} {live : Live H tree} {lives : LiveForest H trees}

theorem idle_cons {below : List (Part H)} (parts : live.parts = ⟨tree, live⟩ :: below) :
    live.Idle ↔ live.status ≠ .running ∧ ∀ part ∈ below, part.live.status ≠ .running := by
  rw [Live.Idle, parts]
  exact List.forall_mem_cons

theorem idle_forest_cons {head : Live H tree} {tail : LiveForest H trees} :
    (LiveForest.cons head tail).Idle ↔ head.Idle ∧ tail.Idle :=
  List.forall_mem_append

theorem Live.Idle.status_ne (idle : live.Idle) : live.status ≠ .running := by
  cases live <;> exact idle _ List.mem_cons_self

theorem forest_idle_iff {trees : Forest H} {lives : LiveForest H trees} :
    lives.Idle ↔ ∀ part ∈ lives.members, part.live.Idle := by
  induction lives with
  | nil => exact iff_of_true (List.forall_mem_nil _) (List.forall_mem_nil _)
  | cons _ _ ih => rw [idle_forest_cons, LiveForest.members, List.forall_mem_cons, ih]

end Idleness

theorem status_of_unheld {tree : Tree H} {live : Live H tree} (attended : live.Attended)
    (unheld : live.handles = []) : live.status ≠ .running := by
  intro running
  obtain ⟨handle, held⟩ := exists_handle live attended running
  rw [unheld] at held
  cases held

mutual

/-- Where no task is held nothing runs. -/
theorem idle_of_unheld : {tree : Tree H} → (live : Live H tree) → live.Attended →
    live.handles = [] → live.Idle
  | _, live@(.relay _ kid), attended, unheld =>
    (idle_cons rfl).mpr ⟨status_of_unheld attended unheld, idle_of_unheld kid attended.2 unheld⟩
  | _, live@(.repeater _ _ kid), attended, unheld | _, live@(.loop _ _ kid), attended, unheld
  | _, live@(.gate _ _ _ _ kid), attended, unheld =>
    (idle_cons rfl).mpr ⟨status_of_unheld attended unheld,
      idle_of_unheld kid attended.2 (List.append_eq_nil_iff.mp unheld).2⟩
  | _, live@(.ordered _ kids), attended, unheld | _, live@(.weighted _ _ kids), attended, unheld =>
    (idle_cons rfl).mpr ⟨status_of_unheld attended unheld,
      idle_of_unheld_all kids attended.2 unheld⟩
  | _, live@(.parallel _ first second), attended, unheld => by
    obtain ⟨main, beside⟩ := List.append_eq_nil_iff.mp unheld
    exact (idle_cons rfl).mpr ⟨status_of_unheld attended unheld, List.forall_mem_append.mpr
      ⟨idle_of_unheld first attended.2.1 main, idle_of_unheld second attended.2.2 beside⟩⟩
  | _, .condition _ _, attended, _ => (idle_cons rfl).mpr ⟨attended, nofun⟩
  | _, live@(.action _ _ _), attended, unheld =>
    (idle_cons rfl).mpr ⟨status_of_unheld attended unheld, nofun⟩

theorem idle_of_unheld_all : {trees : Forest H} → (lives : LiveForest H trees) → lives.Attended →
    lives.handles = [] → lives.Idle
  | _, .nil, _, _ => nofun
  | _, .cons head tail, attended, unheld => by
    obtain ⟨first, rest⟩ := List.append_eq_nil_iff.mp unheld
    exact idle_forest_cons.mpr
      ⟨idle_of_unheld head attended.1 first, idle_of_unheld_all tail attended.2 rest⟩

end

theorem initial_idle (tree : Tree H) : (Live.initial tree).Idle :=
  idle_of_unheld _ (initial_attended tree) (initial_handles tree)

theorem stop_idle (tree : Tree H) (live : Live H tree) (cx : Context H) :
    (stop tree live cx).live.Idle :=
  idle_of_unheld _ (stop_attended tree live cx) (stop_handles tree live cx)

theorem stopAll_idle (trees : Forest H) (lives : LiveForest H trees) (cx : Context H) :
    (stopAll trees lives cx).live.Idle :=
  idle_of_unheld_all _ (stopAll_attended trees lives cx) (stopAll_handles trees lives cx)

section Stale

/-- The wake is for none of the tasks that are held. -/
def Wake.Stale (wake : Wake) (held : List Handle) : Prop :=
  ∀ handle ∈ held, ¬ (handle.node = wake.node ∧ handle.task = wake.task)

variable {wake : Wake}

theorem stale_append {first rest : List Handle} :
    wake.Stale (first ++ rest) ↔ wake.Stale first ∧ wake.Stale rest :=
  List.forall_mem_append

theorem stale_holds {label : Label} {once : Bool} {task : Option Nat}
    (stale : wake.Stale (label.holds once task)) :
    ¬ (wake.node = label.id ∧ task = some wake.task) := by
  rintro ⟨own, rfl⟩
  exact stale _ (List.mem_singleton_self _) ⟨own.symm, rfl⟩

theorem stale_of_unheld {held : List Handle} (unheld : held = []) : wake.Stale held := by
  rw [unheld]
  exact List.forall_mem_nil _

end Stale

mutual

/-- A wake for a task that nobody holds is not heard: on the way to its node no parent gets anything
to react to, and the node itself heeds only the task that it holds. -/
theorem resume_stale (wake : Wake) : (tree : Tree H) → (live : Live H tree) → (cx : Context H) →
    wake.Stale live.handles → resume wake tree live cx = ⟨live, cx, []⟩
  | .relay role label child, .relay status kid, cx, stale => by
    rw [resume, resume_stale wake child kid cx stale]
    exact ite_self _
  | .repeater label child, .repeater status deferred kid, cx, stale => by
    obtain ⟨own, below⟩ := stale_append.mp stale
    rw [resume, resume_stale wake child kid cx below]
    split
    · rename_i here
      exact if_neg fun held => stale_holds own ⟨here, held⟩
    · exact ite_self _
  | .loop label period child, .loop status timer kid, cx, stale => by
    obtain ⟨own, below⟩ := stale_append.mp stale
    rw [resume, resume_stale wake child kid cx below]
    split
    · rename_i here
      exact if_neg fun held => stale_holds own ⟨here, held⟩
    · exact ite_self _
  | .gate label bound mode period child, .gate status unit timer last kid, cx, stale => by
    obtain ⟨own, below⟩ := stale_append.mp stale
    rw [resume, resume_stale wake child kid cx below]
    split
    · rename_i here
      exact if_neg fun held => stale_holds own ⟨here, held⟩
    · cases mode <;> exact ite_self _
  | .ordered order label children, .ordered status kids, cx, stale => by
    rw [resume, resumeFrom_stale wake order label children kids cx stale]
    rfl
  | .weighted label bounds children, .weighted status selected kids, cx, stale => by
    rw [resume, resumeRouted_stale wake children kids cx stale]
    exact ite_self _
  | .parallel label main background, .parallel status first second, cx, stale => by
    obtain ⟨left, right⟩ := stale_append.mp stale
    rw [resume, resume_stale wake main first cx left,
      resume_stale wake background second cx right]
    split
    · rfl
    · exact ite_self _
  | .condition label bound, .condition status unit, cx, _ => by
    rw [resume]
  | .action label bound, .action status unit task, cx, stale => by
    rw [resume]
    exact if_neg (stale_holds stale)

theorem resumeFrom_stale (wake : Wake) (order : Order) (label : Label) : (trees : Forest H) →
    (lives : LiveForest H trees) → (cx : Context H) → wake.Stale lives.handles →
    resumeFrom wake order label trees lives cx = ⟨lives, cx, []⟩
  | .nil, .nil, cx, _ => by rw [resumeFrom]
  | .cons tree trees, .cons head tail, cx, stale => by
    obtain ⟨first, rest⟩ := stale_append.mp stale
    rw [resumeFrom, resume_stale wake tree head cx first,
      resumeFrom_stale wake order label trees tail cx rest]
    split
    · cases order <;> rfl
    · rfl

theorem resumeRouted_stale (wake : Wake) : (trees : Forest H) → (lives : LiveForest H trees) →
    (cx : Context H) → wake.Stale lives.handles →
    resumeRouted wake trees lives cx = ⟨lives, cx, []⟩
  | .nil, .nil, cx, _ => by rw [resumeRouted]
  | .cons tree trees, .cons head tail, cx, stale => by
    obtain ⟨first, rest⟩ := stale_append.mp stale
    rw [resumeRouted, resume_stale wake tree head cx first,
      resumeRouted_stale wake trees tail cx rest]
    exact ite_self _

end

theorem resume_unheld (wake : Wake) (tree : Tree H) (live : Live H tree) (cx : Context H)
    (unheld : live.handles = []) : resume wake tree live cx = ⟨live, cx, []⟩ :=
  resume_stale wake tree live cx (stale_of_unheld unheld)

theorem resumeFrom_unheld (wake : Wake) (order : Order) (label : Label) (trees : Forest H)
    (lives : LiveForest H trees) (cx : Context H) (unheld : lives.handles = []) :
    resumeFrom wake order label trees lives cx = ⟨lives, cx, []⟩ :=
  resumeFrom_stale wake order label trees lives cx (stale_of_unheld unheld)

end ReactiveTree
