import Cadence.Roster
import Cadence.Proofs.Definition.Titles
import Mathlib.Data.List.Forall2
import Mathlib.Data.List.Induction
import Mathlib.Data.List.Nodup

/-!
How a list of raw definitions is sorted out: which positions are kept, and what is said about each of
the others. A definition is kept if it can be read and its name is not that of a definition kept
before it.
-/

namespace Cadence.Roster
open Definition Decimal

variable {roster next : Roster} {raws more : List Value} {raw : Value} {position : Nat}
  {kept : List Nat}

/-! ## One definition -/

inductive Adds (roster : Roster) (position : Nat) (raw : Value) : Roster → Prop
  | kept (task : Task) (read : Definition.task raw = .ok task) (fresh : task.name ∉ roster.names) :
      Adds roster position raw (roster.keep task)
  | taken (task : Task) (read : Definition.task raw = .ok task) (known : task.name ∈ roster.names) :
      Adds roster position raw
        (roster.discard position (.configuration "duplicate task name" (some task.name)))
  | invalid (problem : Problem) (rejected : Definition.task raw = .error (.invalid problem)) :
      Adds roster position raw (roster.discard position problem)

theorem add_adds (added : roster.add position raw = .ok next) : roster.Adds position raw next := by
  unfold add at added
  split at added
  · next task read =>
      split at added
      · next known =>
          obtain rfl := Except.ok.inj added
          exact .taken task read (by simpa using known)
      · next fresh =>
          obtain rfl := Except.ok.inj added
          exact .kept task read (by simpa using fresh)
  · next problem rejected =>
      obtain rfl := Except.ok.inj added
      exact .invalid problem rejected
  · cases added

def Readable (raw : Value) : Prop :=
  ∀ cause, Definition.task raw ≠ .error (.oversize cause)

instance : DecidablePred Readable := fun raw =>
  match read : Definition.task raw with
  | .error (.oversize cause) => isFalse fun readable => readable cause read
  | .error (.invalid _) => isTrue fun _ oversize => by simp [read] at oversize
  | .ok _ => isTrue fun _ oversize => by simp [read] at oversize

theorem add_readable (readable : Readable raw) : ∃ next, roster.add position raw = .ok next := by
  cases normalized : Definition.task raw with
  | ok task =>
      simp only [add, normalized]
      split
      · exact ⟨_, rfl⟩
      · exact ⟨_, rfl⟩
  | error rejection =>
      cases rejection with
      | invalid problem => simp [add, normalized]
      | oversize cause => exact absurd normalized (readable cause)

/-! ## All definitions -/

theorem addAll_append_eq_ok :
    roster.addAll position (raws ++ more) = .ok next ↔
      ∃ middle, roster.addAll position raws = .ok middle ∧
        middle.addAll (position + raws.length) more = .ok next := by
  induction raws generalizing roster position with
  | nil => simp [addAll]
  | cons raw rest ih =>
      simp only [List.cons_append, addAll, List.length_cons]
      cases roster.add position raw with
      | error cause => simp
      | ok first => simp only [ih, Nat.add_assoc, Nat.add_comm 1]

theorem ofList_concat_eq_ok :
    ofList (raws ++ [raw]) = .ok next ↔
      ∃ roster, ofList raws = .ok roster ∧ roster.add raws.length raw = .ok next := by
  rw [ofList, addAll_append_eq_ok]
  simp only [ofList, Nat.zero_add, addAll]
  constructor
  · rintro ⟨roster, before, last⟩
    split at last
    · cases last
    · next added =>
        obtain rfl := Except.ok.inj last
        exact ⟨roster, before, added⟩
  · rintro ⟨roster, before, added⟩
    exact ⟨roster, before, by rw [added]⟩

theorem ofList_readable (readable : ∀ raw ∈ raws, Readable raw) :
    ∃ roster, ofList raws = .ok roster := by
  induction raws using List.reverseRecOn with
  | nil => exact ⟨empty, rfl⟩
  | append_singleton raws raw ih =>
      obtain ⟨roster, before⟩ := ih fun raw among => readable raw (by simp [among])
      obtain ⟨next, added⟩ : ∃ next, roster.add raws.length raw = .ok next :=
        add_readable (readable raw (by simp))
      exact ⟨next, ofList_concat_eq_ok.mpr ⟨roster, before, added⟩⟩

/-! ## Kept and dropped -/

def ReadsAt (raws : List Value) (position : Nat) (task : Task) : Prop :=
  ∃ raw, raws[position]? = some raw ∧ Definition.task raw = .ok task

inductive Explained (raw : Value) : String → Prop
  | taken (task : Task) (read : Definition.task raw = .ok task) :
      Explained raw "duplicate task name"
  | invalid (problem : Problem) (reason : String)
      (rejected : Definition.task raw = .error (.invalid problem))
      (explained : problem.reason? = some reason) : Explained raw reason

def label (title : Option String) (position : Nat) : String :=
  title.getD s!"<task #{position}>"

def DropsAt (raws : List Value) (position : Nat) (drop : Drop) : Prop :=
  ∃ raw title reason, raws[position]? = some raw ∧ Titled raw title ∧ Explained raw reason ∧
    drop.message = "dropping task '" ++ label title position ++ "' with invalid configuration (" ++
      reason ++ ")" ∧
    drop.record = ⟨"task_dropped", .warning,
      [("task", .text (label title position)), ("reason", .text reason)]⟩

theorem discard_drops {problem : Problem} {reason : String} (titled : Titled raw problem.task?)
    (explained : problem.reason? = some reason) (roster : Roster) (position : Nat) :
    roster.discard position problem =
      ⟨roster.tasks, roster.dropped ++ [⟨label problem.task? position, reason⟩]⟩ := by
  cases shown : problem.task? with
  | none => simp [discard, label, shown, explained]
  | some name =>
      rw [shown] at titled
      simp [discard, label, shown, explained, titled.present]

theorem ReadsAt.unique {task other : Task} (reads : ReadsAt raws position task)
    (readsOther : ReadsAt raws position other) : task = other := by
  obtain ⟨raw, found, read⟩ := reads
  obtain ⟨raw', found', read'⟩ := readsOther
  obtain rfl := Option.some.inj (found.symm.trans found')
  exact Except.ok.inj (read.symm.trans read')

theorem ReadsAt.lt {task : Task} (reads : ReadsAt raws position task) : position < raws.length := by
  obtain ⟨raw, found, -⟩ := reads
  exact (List.getElem?_eq_some_iff.mp found).1

theorem readsAt_concat {task : Task} :
    ReadsAt (raws ++ [raw]) position task ↔
      ReadsAt raws position task ∨ position = raws.length ∧ Definition.task raw = .ok task := by
  constructor
  · intro reads
    have bound : position < (raws ++ [raw]).length := reads.lt
    obtain ⟨found, there, read⟩ := reads
    by_cases before : position < raws.length
    · rw [List.getElem?_append_left before] at there
      exact .inl ⟨found, there, read⟩
    · obtain rfl : position = raws.length := by simp at bound; omega
      obtain rfl : raw = found := by simpa using there
      exact .inr ⟨rfl, read⟩
  · rintro (reads | ⟨rfl, read⟩)
    · obtain ⟨found, there, read⟩ := id reads
      exact ⟨found, by rw [List.getElem?_append_left reads.lt, there], read⟩
    · exact ⟨raw, by simp, read⟩

theorem DropsAt.concat {drop : Drop} (drops : DropsAt raws position drop) :
    DropsAt (raws ++ [raw]) position drop := by
  obtain ⟨found, title, reason, there, rest⟩ := drops
  have bound := (List.getElem?_eq_some_iff.mp there).1
  exact ⟨found, title, reason, by rw [List.getElem?_append_left bound, there], rest⟩

structure Sorting (raws : List Value) (roster : Roster) (kept : List Nat) : Prop where
  increasing : kept.Pairwise (· < ·)
  tasks : List.Forall₂ (ReadsAt raws) kept roster.tasks
  distinct : roster.names.Nodup
  exact : ∀ position task, ReadsAt raws position task →
    (position ∈ kept ↔ ∀ earlier ∈ kept, earlier < position →
      ∀ other, ReadsAt raws earlier other → other.name ≠ task.name)
  dropped : List.Forall₂ (DropsAt raws) ((List.range raws.length).filter (· ∉ kept)) roster.dropped
  count : roster.tasks.length + roster.dropped.length = raws.length

namespace Sorting

theorem empty : Sorting [] .empty [] where
  increasing := .nil
  tasks := .nil
  distinct := .nil
  exact position task reads := by simpa using reads.lt
  dropped := .nil
  count := rfl

theorem mem_names (sorting : Sorting raws roster kept) {name : String} :
    name ∈ roster.names ↔
      ∃ position ∈ kept, ∃ task, ReadsAt raws position task ∧ task.name = name := by
  have same := sorting.tasks.length_eq
  constructor
  · intro member
    obtain ⟨task, among, rfl⟩ := List.mem_map.mp member
    obtain ⟨index, bound, rfl⟩ := List.mem_iff_getElem.mp among
    have reads := sorting.tasks.get (same ▸ bound) bound
    exact ⟨kept[index], List.getElem_mem _, _, reads, rfl⟩
  · rintro ⟨position, among, task, reads, rfl⟩
    obtain ⟨index, bound, rfl⟩ := List.mem_iff_getElem.mp among
    have readsToo := sorting.tasks.get bound (same ▸ bound)
    obtain rfl := reads.unique readsToo
    exact List.mem_map_of_mem (List.getElem_mem _)

theorem read (sorting : Sorting raws roster kept) {task : Task} (among : task ∈ roster.tasks) :
    ∃ raw, Definition.task raw = .ok task := by
  obtain ⟨index, bound, rfl⟩ := List.mem_iff_getElem.mp among
  obtain ⟨raw, -, read⟩ := sorting.tasks.get (sorting.tasks.length_eq ▸ bound) bound
  exact ⟨raw, read⟩

theorem lt (sorting : Sorting raws roster kept) (among : position ∈ kept) :
    position < raws.length := by
  obtain ⟨index, bound, rfl⟩ := List.mem_iff_getElem.mp among
  exact (sorting.tasks.get bound (sorting.tasks.length_eq ▸ bound)).lt

theorem tasks_concat (sorting : Sorting raws roster kept) :
    List.Forall₂ (ReadsAt (raws ++ [raw])) kept roster.tasks :=
  sorting.tasks.imp fun _ _ reads => readsAt_concat.mpr (.inl reads)

theorem dropped_concat (sorting : Sorting raws roster kept) :
    List.Forall₂ (DropsAt (raws ++ [raw])) ((List.range raws.length).filter (· ∉ kept))
      roster.dropped :=
  sorting.dropped.imp fun _ _ drops => drops.concat

theorem exact_concat (sorting : Sorting raws roster kept) {after : List Nat}
    (same : ∀ earlier < raws.length, earlier ∈ after ↔ earlier ∈ kept) {position : Nat}
    {task : Task} (reads : ReadsAt raws position task) :
    position ∈ after ↔ ∀ earlier ∈ after, earlier < position →
      ∀ other, ReadsAt (raws ++ [raw]) earlier other → other.name ≠ task.name := by
  rw [same position reads.lt, sorting.exact position task reads]
  constructor
  · intro fresh earlier among before other readsOther
    have inside : earlier < raws.length := Nat.lt_trans before reads.lt
    refine fresh earlier ((same earlier inside).mp among) before other ?_
    rcases readsAt_concat.mp readsOther with readsOther | ⟨rfl, -⟩
    · exact readsOther
    · omega
  · intro fresh earlier among before other readsOther
    exact fresh earlier ((same earlier readsOther.lt).mpr among) before other
      (readsAt_concat.mpr (.inl readsOther))

theorem keep (sorting : Sorting raws roster kept) {task : Task}
    (read : Definition.task raw = .ok task) (fresh : task.name ∉ roster.names) :
    Sorting (raws ++ [raw]) (roster.keep task) (kept ++ [raws.length]) := by
  have new : raws.length ∉ kept := fun among => Nat.lt_irrefl _ (sorting.lt among)
  have reads : ReadsAt (raws ++ [raw]) raws.length task := readsAt_concat.mpr (.inr ⟨rfl, read⟩)
  constructor
  case increasing =>
    refine List.pairwise_append.mpr ⟨sorting.increasing, by simp, ?_⟩
    intro position among last rfl'
    obtain rfl := List.mem_singleton.mp rfl'
    exact sorting.lt among
  case tasks => exact List.rel_append sorting.tasks_concat (.cons reads .nil)
  case distinct =>
    have names : (roster.keep task).names = roster.names ++ [task.name] := by
      simp [Roster.keep, Roster.names]
    rw [names, ← List.concat_eq_append]
    exact sorting.distinct.concat fresh
  case exact =>
    intro position other readsOther
    rcases readsAt_concat.mp readsOther with readsOther | ⟨rfl, readOther⟩
    · refine sorting.exact_concat ?_ readsOther
      intro earlier inside
      simp [Nat.ne_of_lt inside]
    · obtain rfl := Except.ok.inj (read.symm.trans readOther)
      simp only [List.mem_append, List.mem_singleton, or_true, true_iff]
      -- The name is fresh, so that no earlier position has taken it.
      intro earlier among before third readsThird same
      rcases readsAt_concat.mp readsThird with readsThird | ⟨rfl, -⟩
      · have amongOld : earlier ∈ kept := by
          rcases among with among | rfl
          · exact among
          · omega
        exact fresh (sorting.mem_names.mpr ⟨earlier, amongOld, third, readsThird, same⟩)
      · omega
  case dropped =>
    have positions : (List.range (raws ++ [raw]).length).filter (· ∉ kept ++ [raws.length]) =
        (List.range raws.length).filter (· ∉ kept) := by
      rw [List.length_append, List.length_singleton, List.range_succ, List.filter_append]
      have last : [raws.length].filter (· ∉ kept ++ [raws.length]) = [] := by simp
      rw [last, List.append_nil]
      apply List.filter_congr
      intro position inside
      have before := List.mem_range.mp inside
      simp [Nat.ne_of_lt before]
    rw [positions]
    exact sorting.dropped_concat
  case count =>
    have count := sorting.count
    simp only [Roster.keep, List.length_append, List.length_singleton]
    omega

theorem discard (sorting : Sorting raws roster kept) {drop : Drop}
    (drops : DropsAt (raws ++ [raw]) raws.length drop)
    (known : ∀ task, Definition.task raw = .ok task → task.name ∈ roster.names) :
    Sorting (raws ++ [raw]) ⟨roster.tasks, roster.dropped ++ [drop]⟩ kept := by
  have new : raws.length ∉ kept := fun among => Nat.lt_irrefl _ (sorting.lt among)
  constructor
  case increasing => exact sorting.increasing
  case tasks => exact sorting.tasks_concat
  case distinct => exact sorting.distinct
  case exact =>
    intro position task reads
    rcases readsAt_concat.mp reads with reads | ⟨rfl, read⟩
    · exact sorting.exact_concat (fun _ _ => .rfl) reads
    · obtain ⟨earlier, among, other, readsOther, same⟩ := sorting.mem_names.mp (known task read)
      refine iff_of_false new fun fresh => ?_
      exact fresh earlier among (sorting.lt among) other (readsAt_concat.mpr (.inl readsOther)) same
  case dropped =>
    have positions : (List.range (raws ++ [raw]).length).filter (· ∉ kept) =
        (List.range raws.length).filter (· ∉ kept) ++ [raws.length] := by
      rw [List.length_append, List.length_singleton, List.range_succ, List.filter_append]
      simp [new]
    rw [positions]
    exact List.rel_append sorting.dropped_concat (.cons drops .nil)
  case count =>
    have count := sorting.count
    simp only [List.length_append, List.length_singleton]
    omega

theorem add (sorting : Sorting raws roster kept) (added : roster.add raws.length raw = .ok next) :
    ∃ kept, Sorting (raws ++ [raw]) next kept := by
  have there : (raws ++ [raw])[raws.length]? = some raw := by simp
  cases add_adds added with
  | kept task read fresh => exact ⟨_, sorting.keep read fresh⟩
  | taken task read known =>
      have titled := task_titled read
      rw [discard_drops titled rfl]
      refine ⟨kept, sorting.discard ⟨raw, _, _, there, titled, .taken task read, rfl, rfl⟩ ?_⟩
      intro other readOther
      obtain rfl := Except.ok.inj (read.symm.trans readOther)
      exact known
  | invalid problem rejected =>
      obtain ⟨titled, reason, explained⟩ := task_rejected rejected
      rw [discard_drops titled explained]
      have drops := Explained.invalid problem reason rejected explained
      refine ⟨kept, sorting.discard ⟨raw, _, _, there, titled, drops, rfl, rfl⟩ ?_⟩
      intro task read
      cases rejected.symm.trans read

end Sorting

theorem ofList_sorting (made : ofList raws = .ok roster) : ∃ kept, Sorting raws roster kept := by
  induction raws using List.reverseRecOn generalizing roster with
  | nil =>
      obtain rfl := Except.ok.inj made
      exact ⟨[], .empty⟩
  | append_singleton raws raw ih =>
      obtain ⟨before, madeBefore, added⟩ := ofList_concat_eq_ok.mp made
      obtain ⟨kept, sorting⟩ := ih madeBefore
      exact sorting.add added

/-! ## Other lists with the same tasks -/

def readings (raws : List Value) : List Task :=
  raws.filterMap fun raw => (Definition.task raw).toOption

def enroll (tasks : List Task) (task : Task) : List Task :=
  if task.name ∈ tasks.map Task.name then tasks else tasks ++ [task]

theorem add_tasks (added : roster.add position raw = .ok next) :
    next.tasks = (readings [raw]).foldl enroll roster.tasks := by
  cases add_adds added with
  | kept task read fresh =>
      have new : task.name ∉ roster.tasks.map Task.name := fresh
      simp [readings, read, Except.toOption, enroll, keep, new]
  | taken task read known =>
      have old : task.name ∈ roster.tasks.map Task.name := known
      simp [readings, read, Except.toOption, enroll, discard, old]
  | invalid problem rejected => simp [readings, rejected, Except.toOption, discard]

theorem ofList_tasks (made : ofList raws = .ok roster) :
    roster.tasks = (readings raws).foldl enroll [] := by
  induction raws using List.reverseRecOn generalizing roster with
  | nil =>
      obtain rfl := Except.ok.inj made
      rfl
  | append_singleton raws raw ih =>
      obtain ⟨before, madeBefore, added⟩ := ofList_concat_eq_ok.mp made
      have split : readings (raws ++ [raw]) = readings raws ++ readings [raw] :=
        List.filterMap_append
      rw [add_tasks added, ih madeBefore, split, List.foldl_append]

theorem addAll_valid {tasks : List Task}
    (read : List.Forall₂ (fun raw task => Definition.task raw = .ok task) raws tasks)
    (distinct : (roster.names ++ tasks.map Task.name).Nodup) :
    roster.addAll position raws = .ok ⟨roster.tasks ++ tasks, roster.dropped⟩ := by
  induction read generalizing roster position with
  | nil => simp [addAll]
  | @cons raw task raws tasks first _ ih =>
      have fresh : task.name ∉ roster.names := by
        intro known
        exact (List.nodup_append.mp distinct).2.2 _ known _ (by simp) rfl
      have names : (roster.keep task).names ++ tasks.map Task.name =
          roster.names ++ (task :: tasks).map Task.name := by
        simp [keep, Roster.names]
      have added : roster.add position raw = .ok (roster.keep task) := by
        simp [add, first, fresh]
      simp only [addAll, added]
      rw [ih (by rwa [names])]
      simp [keep]

theorem read_kept {tasks : List Task} (reads : List.Forall₂ (ReadsAt raws) kept tasks) :
    List.Forall₂ (fun raw task => Definition.task raw = .ok task) (kept.filterMap (raws[·]?))
      tasks := by
  induction reads with
  | nil => exact .nil
  | cons first _ ih =>
      obtain ⟨raw, found, read⟩ := first
      rw [List.filterMap_cons_some found]
      exact .cons read ih

theorem Sorting.again (sorting : Sorting raws roster kept) :
    ofList (kept.filterMap (raws[·]?)) = .ok ⟨roster.tasks, []⟩ := by
  have read := read_kept sorting.tasks
  exact addAll_valid read sorting.distinct

/-- Every definition that is not kept is dropped with a word about it, and only definitions that are
kept have a say in what becomes of later ones. -/
theorem ofList_exact (readable : ∀ raw ∈ raws, Readable raw) :
    ∃ roster, ofList raws = .ok roster ∧
      (∃ kept, Sorting raws roster kept ∧
        ofList (kept.filterMap (raws[·]?)) = .ok ⟨roster.tasks, []⟩) ∧
      ∀ others : List Value, (∀ raw ∈ others, Readable raw) → readings others = readings raws →
        ∃ other, ofList others = .ok other ∧ other.tasks = roster.tasks := by
  obtain ⟨roster, made⟩ := ofList_readable readable
  obtain ⟨kept, sorting⟩ := ofList_sorting made
  refine ⟨roster, made, ⟨kept, sorting, sorting.again⟩, ?_⟩
  intro others readableOthers same
  obtain ⟨other, madeOther⟩ := ofList_readable readableOthers
  exact ⟨other, madeOther, by rw [ofList_tasks madeOther, ofList_tasks made, same]⟩

def tideDefinition (name path : Value) : Value :=
  .map [(.text "name", name), (.text "controlPath", .text "notifications.tide:high"),
    (.text "activities", .list [.map [(.text "path", path), (.text "duration", .text "inf")]])]

def bowName : Value := .bytes [0x62, 0x6f, 0x77]

def tideDefinitions : List Value :=
  [tideDefinition (.text "deck") (.text "switches.lamp"), .text "deck",
    tideDefinition (.text "") (.text "switches.lamp"),
    tideDefinition (.text "deck") (.text "switches.fan"),
    tideDefinition bowName (.text "no path"), tideDefinition bowName (.text "notifications.bow")]

theorem tide_sorted :
    (∀ raw ∈ tideDefinitions, Readable raw) ∧
    ∃ roster, ofList tideDefinitions = .ok roster ∧ roster.names = ["deck", "bow"] ∧
      roster.dropped.map Drop.label = ["<task #1>", "<task #2>", "deck", "bow"] ∧
      ∃ kept, Sorting tideDefinitions roster kept := by
  have readable : ∀ raw ∈ tideDefinitions, Readable raw := by decide +kernel
  obtain ⟨roster, made, ⟨kept, sorting, -⟩, -⟩ := ofList_exact readable
  have names : (ofList tideDefinitions).map Roster.names = .ok ["deck", "bow"] := by decide +kernel
  have labels : (ofList tideDefinitions).map (fun roster => roster.dropped.map Drop.label) =
      .ok ["<task #1>", "<task #2>", "deck", "bow"] := by decide +kernel
  rw [made] at names labels
  exact ⟨readable, roster, made, Except.ok.inj names, Except.ok.inj labels, kept, sorting⟩

end Cadence.Roster
