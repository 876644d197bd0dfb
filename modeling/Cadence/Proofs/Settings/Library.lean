import Cadence.Proofs.Settings.Layers
import Cadence.Settings.Library

/-!
What is assumed of the library: what it is given goes before the environment, and maps of the two are
merged name by name. The library as it comes does so, as long as it is given no options.
-/

namespace Cadence.Settings
open Definition Value

variable {above below result other : Option Value} {value under : Value} {entries given : Entries}
  {name : String}

/-- What comes of a value and a value below it. -/
inductive Overlaid : Option Value → Option Value → Option Value → Prop
  | lower {found : Option Value} : Overlaid none found found
  | upper {value : Value} : Overlaid (some value) none (some value)
  | whole {value under : Value}
      (single : (∀ entries, value ≠ .map entries) ∨ ∀ entries, under ≠ .map entries) :
      Overlaid (some value) (some under) (some value)
  | merged {entries below merged : Entries}
      (each : ∀ name, Overlaid (lookup entries name) (lookup below name) (lookup merged name)) :
      Overlaid (some (.map entries)) (some (.map below)) (some (.map merged))

inductive Proper : Value → Prop
  | single {value : Value} (single : ∀ entries, value ≠ .map entries) : Proper value
  | map {entries : Entries} (distinct : Distinct entries)
      (each : ∀ entry ∈ entries, Proper entry.2) : Proper (.map entries)

/-- Entries under names that are no options. -/
structure Library.Takes (library : Library) (given : Entries) : Prop where
  names : ∀ key ∈ given.map Prod.fst, ∃ name, key = .text name ∧ library.isOption name = false
  distinct : Distinct given
  proper : ∀ name value, lookup given name = some value → Proper value

/-- Entries are laid over what the environment gives alone. -/
structure Library.Merges (library : Library) : Prop where
  fails : ∀ env given error, library.Takes given → library.gather env [] = .error error →
    library.gather env given = .error error
  lays : ∀ env given under, library.Takes given → library.gather env [] = .ok under →
    ∃ gathered, library.gather env given = .ok gathered ∧
      ∀ name, Overlaid (lookup given name) (lookup under name) (lookup gathered name)

/-! ## What comes of two values -/

theorem Overlaid.cases (overlaid : Overlaid above below result) : result = above.or below ∨
    ∃ entries others merged, above = some (.map entries) ∧ below = some (.map others) ∧
      result = some (.map merged) := by
  cases overlaid with
  | lower | upper | whole => exact .inl rfl
  | merged => exact .inr ⟨_, _, _, rfl, rfl, rfl⟩

theorem field?_single (single : ∀ entries, value ≠ .map entries) :
    field? (some value) name = none := by
  cases value with
  | map entries => exact absurd rfl (single entries)
  | _ => rfl

theorem Overlaid.field (overlaid : Overlaid above below result)
    (isMap : ∀ value, above = some value → ∃ entries, value = .map entries) :
    Overlaid (field? above name) (field? below name) (field? result name) := by
  have alone (found : Option Value) : Overlaid found none found := by
    cases found with
    | none => exact .lower
    | some value => exact .upper
  cases overlaid with
  | lower => exact .lower
  | upper => exact alone _
  | whole single =>
      obtain ⟨entries, rfl⟩ := isMap _ rfl
      rcases single with single | single
      · exact absurd rfl (single entries)
      · rw [field?_single single]
        exact alone _
  | merged each => exact each name

inductive Similar : Option Value → Option Value → Prop
  | same {found : Option Value} : Similar found found
  | maps {entries others : Entries}
      (each : ∀ name, Similar (lookup entries name) (lookup others name)) :
      Similar (some (.map entries)) (some (.map others))

theorem Overlaid.similar (overlaid : Overlaid above below result)
    (overlaid' : Overlaid above below other) : Similar result other := by
  induction overlaid generalizing other with
  | lower | upper =>
      cases overlaid'
      exact .same
  | whole single =>
      cases overlaid' with
      | whole => exact .same
      | merged => exact single.elim (absurd rfl <| · _) (absurd rfl <| · _)
  | merged each ih =>
      cases overlaid' with
      | whole single => exact single.elim (absurd rfl <| · _) (absurd rfl <| · _)
      | merged each' => exact .maps fun name => ih name (each' name)

/-! ## The library as it comes -/

theorem mem_of_lookup (found : lookup entries name = some value) :
    (.text name, value) ∈ entries := by
  obtain ⟨⟨key, held⟩, among, rfl⟩ := Option.map_eq_some_iff.mp found
  have own := List.find?_some among
  cases key with
  | text other =>
      obtain rfl := of_decide_eq_true own
      exact List.mem_of_find?_eq_some among
  | _ => cases own

theorem overlaid_laid (each : ∀ value, above = some value → ∀ under,
    Overlaid (some value) (some under) (some (overlay under value))) :
    Overlaid above below (laid above below) := by
  cases above with
  | none => exact .lower
  | some value =>
      cases below with
      | none => exact .upper
      | some under => exact each value rfl under

theorem Proper.overlaid (proper : Proper value) (under : Value) :
    Overlaid (some value) (some under) (some (overlay under value)) := by
  induction proper generalizing under with
  | single single =>
      rw [overlay_other single]
      exact .whole (.inl single)
  | @map entries distinct each ih =>
      by_cases isMap : ∃ below, under = .map below
      · obtain ⟨below, rfl⟩ := isMap
        rw [overlay]
        refine .merged fun name => ?_
        rw [lookup_overlayEntries distinct]
        exact overlaid_laid fun value found => ih _ (mem_of_lookup found)
      · have single : ∀ below, under ≠ .map below := fun below same => isMap ⟨below, same⟩
        have whole : overlay under (.map entries) = .map entries := by
          cases under with
          | map below => exact absurd rfl (single below)
          | _ => rw [overlay]; simp
        rw [whole]
        exact .whole (.inr single)

theorem takes_nothing (library : Library) : library.Takes [] := ⟨nofun, .nil, nofun⟩

variable [Host] {env : Environment}

theorem standard_gather (takes : standard.Takes given) :
    standard.gather env given = env.layer.map fun under => overlayEntries under given := by
  have silent : lookup given "_env_prefix" = none := by
    by_contra present
    obtain ⟨value, found⟩ := Option.ne_none_iff_exists'.mp present
    obtain ⟨name, same, block⟩ := takes.names _ (List.mem_map_of_mem (mem_of_lookup found))
    obtain rfl : "_env_prefix" = name := by injection same
    cases block
  have kept : given.filter isBlock = given := by
    refine List.filter_eq_self.mpr fun entry member => ?_
    obtain ⟨name, isName, block⟩ := takes.names _ (List.mem_map_of_mem member)
    have named : isOption name = false := block
    rw [isBlock, isName]
    simp [named]
  simp only [standard, Environment.seen, silent, kept]

theorem standard_environment : standard.gather env [] = env.layer := by
  rw [standard_gather (takes_nothing standard)]
  cases env.layer <;> simp [Except.map, overlayEntries]

theorem standard_merges : standard.Merges := by
  constructor
  · intro env given error takes fails
    rw [standard_environment] at fails
    rw [standard_gather takes, fails]
    rfl
  · intro env given under takes reads
    rw [standard_environment] at reads
    refine ⟨overlayEntries under given, by rw [standard_gather takes, reads]; rfl, fun name => ?_⟩
    rw [lookup_overlayEntries takes.distinct]
    exact overlaid_laid fun value found => (takes.proper name value found).overlaid

end Cadence.Settings
