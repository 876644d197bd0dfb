import Cadence.Proofs.Definition.Fields
import Cadence.Proofs.Lookup
import Cadence.Proofs.Settings.Library
import Cadence.Proofs.Settings.Variables
import Cadence.Settings.Load

namespace Cadence.Settings
open Definition Value

abbrev Content := List (String × Value)

inductive Holds : Found → Content → Prop
  | nothing {value : Value} (empty : value.isEmpty = true) : Holds (.content value) []
  | blocks {content : Content} (distinct : (content.map (·.1)).Nodup)
      (proper : ∀ block ∈ content, Proper block.2) :
      Holds (.content (.record content)) content

/-- The block of a name in the last content that has one. -/
def block? (name : String) (contents : List Content) : Option Value :=
  contents.reverse.findSome? (·.lookup name)

/-- Where a field comes from, if it is set anywhere. -/
def source (contents : List Content) (under : Entries) (block field : String) : Option Value :=
  (field? (block? block contents) field).or (field? (lookup under block) field)

/-- What a check makes of a source, or the default where there is no source. -/
def Chosen {α : Type} (check : Check α) (default : α) (source : Option Value) (x : α) : Prop :=
  match source with
  | none => x = default
  | some value => check value = .ok x

def IsBlock (found : Option Value) : Prop := ∀ value, found = some value → ∃ entries, value = .map entries

structure Merged (contents : List Content) (under : Entries) (settings : Settings) : Prop where
  logging : IsBlock ((block? "logging" contents).or (lookup under "logging"))
  level : Chosen level .info (source contents under "logging" "level") settings.logging.level
  format : Chosen format .console (source contents under "logging" "format") settings.logging.format
  file : Chosen file none (source contents under "logging" "file") settings.logging.file
  scheduler : IsBlock ((block? "scheduler" contents).or (lookup under "scheduler"))
  onMessage : Chosen text Outlet.onMessageDefault (source contents under "scheduler" "on_message")
    settings.scheduler.onMessage
  offMessage : Chosen text Outlet.offMessageDefault (source contents under "scheduler" "off_message")
    settings.scheduler.offMessage
  linger : Chosen countingNumber 0 (source contents under "scheduler" "linger_seconds")
    settings.scheduler.linger
  tasks : ((block? "tasks" contents).or (lookup under "tasks")).getD (.list []) = .list settings.tasks

variable {contents : List Content} {content : Content} {under entries : Entries} {settings : Settings}
  {name : String} {env : Environment} {files : List Found} {library : Library}

/-- No block goes by the name of an option. -/
def Library.Free (library : Library) (contents : List Content) : Prop :=
  ∀ content ∈ contents, ∀ block ∈ content, library.isOption block.1 = false

/-! ## Files -/

theorem lookup_record (content : Content) (name : String) :
    lookup (content.map fun block => (.text block.1, block.2)) name = content.lookup name := by
  induction content with
  | nil => rfl
  | cons block rest ih =>
      obtain ⟨own, value⟩ := block
      rw [List.map_cons]
      by_cases same : own = name
      · subst same
        rw [lookup_cons_self]
        simp
      · have apart : (name == own) = false := by simpa using Ne.symm same
        rw [lookup_cons_other fun equal => same (by injection equal), ih]
        simp only [List.lookup_cons, apart]

theorem distinct_record (distinct : (content.map (·.1)).Nodup) :
    Distinct (content.map fun block => (.text block.1, block.2)) := by
  rw [Distinct, List.map_map]
  have names := List.pairwise_map.mp distinct
  refine List.pairwise_map.mpr (names.imp ?_)
  intro one other apart name own same
  exact apart (by injection own.trans same.symm)

structure Named (library : Library) (gathered : Entries) (values : String → Option Value) : Prop where
  lookup : ∀ name, lookup gathered name = values name
  names : ∀ key ∈ gathered.map Prod.fst, ∃ name, key = .text name ∧ library.isOption name = false
  distinct : Distinct gathered

variable {gathered : Entries} {values : String → Option Value} {found : Found}

theorem addFile_named (named : Named library gathered values) (held : Holds found content)
    (free : ∀ block ∈ content, library.isOption block.1 = false) :
    ∃ added, addFile gathered found = .ok added ∧
      Named library added fun name => (content.lookup name).or (values name) := by
  cases held with
  | @nothing value empty =>
      have kept : addFile gathered (.content value) = .ok gathered := by
        cases value with
        | map entries =>
            obtain rfl := List.isEmpty_iff.mp empty
            rfl
        | _ => simp [addFile, empty]
      exact ⟨gathered, kept, by simpa using named⟩
  | blocks distinct proper =>
      refine ⟨_, rfl, ?_, ?_, distinct_addBlocks named.distinct⟩
      · intro name
        rw [lookup_addBlocks (distinct_record distinct), lookup_record, named.lookup]
      · intro key member
        rcases keys_addBlocks key member with before | own
        · exact named.names key before
        · rw [List.map_map] at own
          obtain ⟨block, among, rfl⟩ := List.mem_map.mp own
          exact ⟨block.1, rfl, free block among⟩

theorem block?_cons (content : Content) (rest : List Content) :
    block? name (content :: rest) = (block? name rest).or (content.lookup name) := by
  simp [block?, List.findSome?_append]

theorem addFiles_named (named : Named library gathered values)
    (held : List.Forall₂ Holds files contents) (free : library.Free contents) :
    ∃ added, addFiles gathered files = .ok added ∧
      Named library added fun name => (block? name contents).or (values name) := by
  induction held generalizing gathered values with
  | nil => exact ⟨gathered, rfl, by simpa [block?] using named⟩
  | cons held _ ih =>
      obtain ⟨first, adds, named⟩ := addFile_named named held (free _ List.mem_cons_self)
      obtain ⟨added, later, named⟩ :=
        ih named fun content member => free content (List.mem_cons_of_mem _ member)
      refine ⟨added, ?_, ?_⟩
      · rw [addFiles, adds]
        exact later
      · simpa [block?_cons, Option.or_assoc] using named

theorem block?_proper {value : Value} (held : List.Forall₂ Holds files contents)
    (found : block? name contents = some value) : Proper value := by
  induction held with
  | nil => cases found
  | @cons file content files contents held _ ih =>
      rw [block?_cons] at found
      rcases Option.or_eq_some_iff.mp found with later | ⟨-, own⟩
      · exact ih later
      · cases held with
        | nothing empty => cases own
        | blocks distinct proper => exact proper (name, value) ((lookup_eq_some distinct).mp own)

theorem addFiles_taken (held : List.Forall₂ Holds files contents) (free : library.Free contents) :
    ∃ gathered, addFiles [] files = .ok gathered ∧ library.Takes gathered ∧
      ∀ name, lookup gathered name = block? name contents := by
  have nothing : Named library [] fun _ => none := ⟨fun _ => rfl, nofun, .nil⟩
  obtain ⟨gathered, adds, named⟩ := addFiles_named nothing held free
  have looked (name : String) : lookup gathered name = block? name contents := by
    simp [named.lookup]
  refine ⟨gathered, adds, ⟨named.names, named.distinct, fun name value found => ?_⟩, looked⟩
  exact block?_proper held (by rw [← looked, found])

/-! ## Fields -/

theorem isBlock_none : IsBlock none := nofun

theorem isBlock_map : IsBlock (some (.map entries)) :=
  fun _ same => ⟨entries, (Option.some.inj same).symm⟩

section fields
variable {α : Type} {check : Check α} {default x : α} {above below result : Option Value}
  {others : Entries}

theorem optional_eq_ok : optional entries name check default = .ok x ↔
    Chosen check default (lookup entries name) x := by
  unfold Definition.optional Chosen
  cases lookup entries name with
  | none => exact ⟨fun same => (Except.ok.inj same).symm, fun same => congrArg _ same.symm⟩
  | some value => exact mapError_eq_ok

def Flat (check : Check α) : Prop := ∃ fault, ∀ entries, check (.map entries) = .error fault

theorem level_flat : Flat level := ⟨_, fun _ => rfl⟩

theorem format_flat : Flat format := ⟨_, fun _ => rfl⟩

theorem file_flat : Flat file := ⟨_, fun _ => rfl⟩

theorem text_flat : Flat text := ⟨_, fun _ => rfl⟩

theorem list_flat : Flat list := ⟨_, fun _ => rfl⟩

theorem countingNumber_flat : Flat countingNumber := ⟨_, fun _ => rfl⟩

theorem chosen_overlaid (flat : Flat check) (overlaid : Overlaid above below result) :
    Chosen check default result x ↔ Chosen check default (above.or below) x := by
  rcases overlaid.cases with hides | ⟨entries, others, merged, rfl, -, rfl⟩
  · rw [hides]
  · obtain ⟨fault, fails⟩ := flat
    simp [Chosen, fails]

theorem optional_similar (flat : Flat check)
    (similar : Similar (lookup entries name) (lookup others name)) :
    optional entries name check default = optional others name check default := by
  unfold Definition.optional
  generalize lookup entries name = found, lookup others name = found' at similar
  cases similar with
  | same => rfl
  | maps =>
      obtain ⟨fault, fails⟩ := flat
      simp [Check.named, fails]

variable {model : String} {fields : Entries → Checked α}

theorem block_eq_ok {value : Value} : block model fields value = .ok x ↔
    ∃ entries, value = .map entries ∧ fields entries = .ok x := by
  unfold block
  cases value with
  | map entries => simp [Definition.map]
  | _ => simp [Definition.map]

theorem optionalBlock_eq_ok (model : String) (empty : fields [] = .ok default) :
    optionalBlock entries name (block model fields) default = .ok x ↔
      IsBlock (lookup entries name) ∧ fields (entriesOf (lookup entries name)) = .ok x := by
  unfold optionalBlock
  cases lookup entries name with
  | none => simp [IsBlock, entriesOf, empty]
  | some value =>
      refine mapError_eq_ok.trans (block_eq_ok.trans ?_)
      constructor
      · rintro ⟨inner, rfl, passes⟩
        exact ⟨isBlock_map, passes⟩
      · rintro ⟨isBlock, passes⟩
        obtain ⟨inner, rfl⟩ := isBlock value rfl
        exact ⟨inner, rfl, passes⟩

theorem optionalBlock_similar
    (each : ∀ {entries others : Entries},
      (∀ name, Similar (lookup entries name) (lookup others name)) → fields entries = fields others)
    (similar : Similar (lookup entries name) (lookup others name)) :
    optionalBlock entries name (block model fields) default =
      optionalBlock others name (block model fields) default := by
  unfold optionalBlock
  generalize lookup entries name = found, lookup others name = found' at similar
  cases similar with
  | same => rfl
  | maps similar => simp only [block, Definition.map, each similar]

end fields

theorem isBlock_overlaid {above below result : Option Value}
    (overlaid : Overlaid above below result) : IsBlock result ↔ IsBlock (above.or below) := by
  rcases overlaid.cases with hides | ⟨entries, others, merged, rfl, -, rfl⟩
  · rw [hides]
  · exact iff_of_true isBlock_map isBlock_map

theorem loggingFields_eq_ok {logging : Logging} : loggingFields entries = .ok logging ↔
    Chosen level .info (lookup entries "level") logging.level ∧
      Chosen format .console (lookup entries "format") logging.format ∧
      Chosen file none (lookup entries "file") logging.file := by
  simp only [← optional_eq_ok]
  constructor
  · intro passes
    obtain ⟨_, file, formatted, filed, rfl⟩ := Checked.apply_eq_ok.mp passes
    obtain ⟨_, format, levelled, formats, rfl⟩ := Checked.apply_eq_ok.mp formatted
    obtain ⟨_, level, made, levels, rfl⟩ := Checked.apply_eq_ok.mp levelled
    obtain rfl := Except.ok.inj made
    exact ⟨levels, formats, filed⟩
  · rintro ⟨levels, formats, filed⟩
    simp only [loggingFields, levels, formats, filed]
    rfl

theorem schedulerFields_eq_ok {scheduler : Scheduler} : schedulerFields entries = .ok scheduler ↔
    Chosen text Outlet.onMessageDefault (lookup entries "on_message") scheduler.onMessage ∧
      Chosen text Outlet.offMessageDefault (lookup entries "off_message") scheduler.offMessage ∧
      Chosen countingNumber 0 (lookup entries "linger_seconds") scheduler.linger := by
  simp only [← optional_eq_ok]
  constructor
  · intro passes
    obtain ⟨_, linger, messaged, lingers, rfl⟩ := Checked.apply_eq_ok.mp passes
    obtain ⟨_, offMessage, begun, offs, rfl⟩ := Checked.apply_eq_ok.mp messaged
    obtain ⟨_, onMessage, made, ons, rfl⟩ := Checked.apply_eq_ok.mp begun
    obtain rfl := Except.ok.inj made
    exact ⟨ons, offs, lingers⟩
  · rintro ⟨ons, offs, lingers⟩
    simp only [schedulerFields, ons, offs, lingers]
    rfl

theorem loggingFields_nil : loggingFields [] = .ok .default := rfl

theorem schedulerFields_nil : schedulerFields [] = .ok .default := rfl

theorem ofEntries_eq_ok : ofEntries entries = .ok settings ↔
    (IsBlock (lookup entries "logging") ∧
      loggingFields (entriesOf (lookup entries "logging")) = .ok settings.logging) ∧
    (IsBlock (lookup entries "scheduler") ∧
      schedulerFields (entriesOf (lookup entries "scheduler")) = .ok settings.scheduler) ∧
    Chosen list [] (lookup entries "tasks") settings.tasks := by
  rw [← optionalBlock_eq_ok "LoggingConfig" loggingFields_nil,
    ← optionalBlock_eq_ok "SchedulerConfig" schedulerFields_nil, ← optional_eq_ok]
  constructor
  · intro passes
    obtain ⟨_, tasks, blocks, listed, rfl⟩ := Checked.apply_eq_ok.mp passes
    obtain ⟨_, scheduler, begun, schedules, rfl⟩ := Checked.apply_eq_ok.mp blocks
    obtain ⟨_, logging, made, logs, rfl⟩ := Checked.apply_eq_ok.mp begun
    obtain rfl := Except.ok.inj made
    exact ⟨logs, schedules, listed⟩
  · rintro ⟨logs, schedules, listed⟩
    simp only [ofEntries, logs, schedules, listed]
    rfl

theorem chosen_list {found : Option Value} {tasks : List Value} :
    Chosen list [] found tasks ↔ found.getD (.list []) = .list tasks := by
  cases found with
  | none => simp [Chosen, eq_comm]
  | some value => cases value <;> simp [Chosen, Definition.list]

/-! ## Loading -/

theorem load_eq (env : Environment) (held : List.Forall₂ Holds files contents)
    (free : library.Free contents) : ∃ given, library.Takes given ∧
      (∀ name, lookup given name = block? name contents) ∧
      load library env files = (library.gather env given).mapError .variable >>= fun gathered =>
        (ofEntries gathered).mapError .invalid := by
  obtain ⟨given, adds, takes, looked⟩ := addFiles_taken held free
  refine ⟨given, takes, looked, ?_⟩
  have texts : (given.all fun entry => isText entry.1) = true := by
    rw [List.all_eq_true]
    intro entry member
    obtain ⟨name, isName, -⟩ := takes.names _ (List.mem_map_of_mem member)
    rw [isName]
    rfl
  rw [load, adds]
  show ofBlocks library env given = _
  rw [ofBlocks, if_pos texts]

theorem ofEntries_similar {others : Entries}
    (similar : ∀ part ∈ blocks, Similar (lookup entries part.1) (lookup others part.1)) :
    ofEntries entries = ofEntries others := by
  have logging := similar _ (List.mem_cons_self ..)
  have scheduler := similar _ (List.mem_cons_of_mem _ (List.mem_cons_self ..))
  have tasks := similar _ (List.mem_cons_of_mem _ (List.mem_cons_of_mem _ (List.mem_cons_self ..)))
  have logs {entries others : Entries}
      (each : ∀ name, Similar (lookup entries name) (lookup others name)) :
      loggingFields entries = loggingFields others := by
    simp only [loggingFields, optional_similar level_flat (each _),
      optional_similar format_flat (each _), optional_similar file_flat (each _)]
  have schedules {entries others : Entries}
      (each : ∀ name, Similar (lookup entries name) (lookup others name)) :
      schedulerFields entries = schedulerFields others := by
    simp only [schedulerFields, optional_similar text_flat (each _),
      optional_similar countingNumber_flat (each _)]
  simp only [ofEntries, optionalBlock_similar logs logging,
    optionalBlock_similar schedules scheduler, optional_similar list_flat tasks]

theorem merged_iff (overlaid : ∀ name,
    Overlaid (block? name contents) (lookup under name) (lookup gathered name)) :
    ofEntries gathered = .ok settings ↔ Merged contents under settings := by
  have field (block field : String)
      (isBlock : IsBlock ((block? block contents).or (lookup under block))) :
      Overlaid (field? (block? block contents) field) (field? (lookup under block) field)
        (lookup (entriesOf (lookup gathered block)) field) :=
    (overlaid block).field fun value found => isBlock value (by rw [found]; rfl)
  rw [ofEntries_eq_ok, isBlock_overlaid (overlaid _), isBlock_overlaid (overlaid _),
    loggingFields_eq_ok, schedulerFields_eq_ok, chosen_overlaid list_flat (overlaid _), chosen_list]
  constructor
  · rintro ⟨⟨logging, level, format, file⟩, ⟨scheduler, on, off, linger⟩, tasks⟩
    rw [chosen_overlaid level_flat (field _ _ logging)] at level
    rw [chosen_overlaid format_flat (field _ _ logging)] at format
    rw [chosen_overlaid file_flat (field _ _ logging)] at file
    rw [chosen_overlaid text_flat (field _ _ scheduler)] at on off
    rw [chosen_overlaid countingNumber_flat (field _ _ scheduler)] at linger
    exact ⟨logging, level, format, file, scheduler, on, off, linger, tasks⟩
  · rintro ⟨logging, level, format, file, scheduler, on, off, linger, tasks⟩
    rw [chosen_overlaid level_flat (field _ _ logging),
      chosen_overlaid format_flat (field _ _ logging), chosen_overlaid file_flat (field _ _ logging),
      chosen_overlaid text_flat (field _ _ scheduler), chosen_overlaid text_flat (field _ _ scheduler),
      chosen_overlaid countingNumber_flat (field _ _ scheduler)]
    exact ⟨⟨logging, level, format, file⟩, ⟨scheduler, on, off, linger⟩, tasks⟩

/-- Blocks of files, and fields of blocks, are taken from the most important source that has them:
the files, each as a whole, then the environment, then the defaults. -/
theorem load_by_priority [Host] (merges : library.Merges) (held : List.Forall₂ Holds files contents)
    (free : library.Free contents) :
    (∀ settings, load library env files = .ok settings ↔
      ∃ under, library.gather env [] = .ok under ∧ Merged contents under settings) ∧
    (∀ others contents', List.Forall₂ Holds others contents' → library.Free contents' →
      (∀ part ∈ blocks, block? part.1 contents' = block? part.1 contents) →
        load library env others = load library env files) ∧
    ∀ under, standard.gather env [] = .ok under →
      ∀ part ∈ blocks, Tells env part.1 part.2 (lookup under part.1) := by
  obtain ⟨given, takes, looked, loads⟩ := load_eq env held free
  refine ⟨fun settings => ?_, ?_, fun under reads part member => ?_⟩
  · rw [loads]
    cases reads : library.gather env [] with
    | error error =>
        rw [merges.fails env given error takes reads]
        constructor
        · nofun
        · rintro ⟨under, same, -⟩
          cases same
    | ok under =>
        obtain ⟨gathered, gathers, overlaid⟩ := merges.lays env given under takes reads
        simp only [looked] at overlaid
        rw [gathers]
        refine mapError_eq_ok.trans ((merged_iff overlaid).trans ?_)
        constructor
        · exact fun merged => ⟨under, rfl, merged⟩
        · rintro ⟨other, same, merged⟩
          obtain rfl := Except.ok.inj same
          exact merged
  · intro others contents' held' free' same
    -- The same blocks are laid over the same environment, in whatever order.
    obtain ⟨given', takes', looked', loads'⟩ := load_eq env held' free'
    rw [loads, loads']
    cases reads : library.gather env [] with
    | error error =>
        rw [merges.fails env given error takes reads, merges.fails env given' error takes' reads]
    | ok under =>
        obtain ⟨gathered, gathers, overlaid⟩ := merges.lays env given under takes reads
        obtain ⟨gathered', gathers', overlaid'⟩ := merges.lays env given' under takes' reads
        have similar : ∀ part ∈ blocks, Similar (lookup gathered' part.1) (lookup gathered part.1) := by
          intro part member
          have above : lookup given' part.1 = lookup given part.1 := by
            rw [looked, looked', same part member]
          exact (above ▸ overlaid' part.1).similar (overlaid part.1)
        rw [gathers, gathers']
        exact congrArg (Except.mapError _) (ofEntries_similar similar)
  · rw [standard_environment] at reads
    exact layer_tells reads member

def warned : Environment := [("PROCESS_SCHEDULER_LOGGING__LEVEL", "warning")]

theorem lowerCase_warned : lowerCase warned = [(fieldVariable "logging" "level", "warning")] := by
  have small : "PROCESS_SCHEDULER_LOGGING__LEVEL".map smallLetter = fieldVariable "logging" "level" := by
    rw [← String.toList_inj, String.toList_map]
    decide
  simp only [lowerCase, warned, List.foldl, small]
  rfl

theorem layer_warned [Host] :
    warned.layer = .ok [(.text "logging", .map [(.text "level", .text "warning")])] := by
  have renamed : renameFields loggingNames [(.text "level", .text "warning")] =
      [(.text "level", .text "warning")] := by
    have small : "level".map smallLetter = "level" := by
      rw [← String.toList_inj, String.toList_map]
      decide
    simp only [renameFields, List.foldl, small]
    rfl
  have logging : blockOf? [(fieldVariable "logging" "level", "warning")] "logging" loggingNames =
      .ok (some (.map [(.text "level", .text "warning")])) := by
    rw [← renamed]
    rfl
  rw [Environment.layer, lowerCase_warned]
  simp only [layerFrom, blocks, logging]
  rfl

theorem proper_text (s : String) : Proper (.text s) := .single nofun

theorem format_beside_level_loaded :
    let system : Content := [("logging", .map [(.text "level", .text "debug"),
      (.text "file", .text "system.log")]), ("tasks", .list [.text "dawn"])]
    let user : Content := [("logging", .map [(.text "format", .text "json")])]
    let files : List Found := [.content (.record system), .content (.record user), .content .null]
    standard.Merges ∧ List.Forall₂ Holds files [system, user, []] ∧
      standard.Free [system, user, []] ∧
      load standard warned files = .ok ⟨⟨.warning, .json, none⟩, .default, [.text "dawn"]⟩ := by
  intro system user files
  have held : List.Forall₂ Holds files [system, user, []] := by
    refine .cons (.blocks (by decide) ?_) (.cons (.blocks (by decide) ?_) (.cons (.nothing rfl) .nil))
    · simp only [system, List.forall_mem_cons, List.not_mem_nil, false_imp_iff, implies_true, and_true]
      refine ⟨.map (by simp [Distinct]) ?_, .single nofun⟩
      simp [proper_text]
    · simp only [user, List.forall_mem_cons, List.not_mem_nil, false_imp_iff, implies_true, and_true]
      refine .map (by simp [Distinct]) ?_
      simp [proper_text]
  have free : standard.Free [system, user, []] := by
    unfold Library.Free
    decide
  refine ⟨standard_merges, held, free, ((load_by_priority standard_merges held free).1 _).mpr
    ⟨_, standard_environment.trans layer_warned, ?_⟩⟩
  have logging : IsBlock (some (.map [(.text "format", .text "json")])) := isBlock_map
  exact ⟨logging, rfl, rfl, rfl, isBlock_none, rfl, rfl, rfl, rfl⟩

/-- A file that names an option gives variables other names, so that the level is the default. -/
theorem option_reroots_variables :
    let content : Content := [("_env_prefix", .text "OTHER_")]
    let files : List Found := [.content (.record content)]
    List.Forall₂ Holds files [content] ∧ load standard warned files = .ok .default ∧
      ¬ ∃ under, standard.gather warned [] = .ok under ∧ Merged [content] under .default := by
  intro content files
  refine ⟨.cons (.blocks (by decide) ?_) .nil, ?_, ?_⟩
  · simp [content, proper_text]
  · have rerooted : warned.rerooted "OTHER_" = [] := by
      have apart : after? ("OTHER_".map smallLetter).toList
          (fieldVariable "logging" "level").toList = none := by
        rw [String.toList_map]
        decide
      simp only [Environment.rerooted, lowerCase_warned, List.filterMap_cons, apart]
      rfl
    have gathered : standard.gather warned [(.text "_env_prefix", .text "OTHER_")] = .ok [] := by
      have seen : warned.seen [(.text "_env_prefix", .text "OTHER_")] = [] := rerooted
      simp only [standard, seen]
      rfl
    show ofBlocks standard warned [(.text "_env_prefix", .text "OTHER_")] = _
    rw [ofBlocks, if_pos (by decide), gathered]
    rfl
  · rintro ⟨under, reads, merged⟩
    rw [standard_environment, layer_warned] at reads
    obtain rfl := Except.ok.inj reads
    have level : Except.ok Log.Level.warning = (.ok .info : Except Definition.Fault _) := merged.level
    cases level

end Cadence.Settings
