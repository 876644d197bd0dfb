import Cadence.Proofs.Value.Entries
import Cadence.Settings.Environment
import Cadence.Settings.Files

namespace Cadence.Settings
open Definition Value

variable {above below before entries : Entries} {key value under : Value} {name block : String}

theorem entry?_text : entry? entries (.text name) = lookup entries name := by
  unfold entry? lookup
  congr 2
  funext entry
  obtain ⟨key, value⟩ := entry
  cases key <;> simp [Value.same, whole?, eq_comm]

def laid : Option Value → Option Value → Option Value
  | some value, some under => some (overlay under value)
  | some value, none => some value
  | none, below => below

theorem lookup_overlayEntries (distinct : Distinct above) :
    lookup (overlayEntries below above) name = laid (lookup above name) (lookup below name) := by
  induction above generalizing below with
  | nil => rw [overlayEntries]; rfl
  | cons entry rest ih =>
      obtain ⟨key, value⟩ := entry
      rw [overlayEntries, ih (List.Pairwise.of_cons distinct)]
      by_cases same : key = .text name
      · obtain rfl := same
        rw [distinct.lookup_cons rfl, lookup_cons_self, lookup_insert_self, entry?_text]
        cases lookup below name <;> rfl
      · rw [lookup_cons_other same, lookup_insert_other same]

theorem distinct_overlayEntries (distinct : Distinct below) : Distinct (overlayEntries below above) := by
  induction above generalizing below with
  | nil => rwa [overlayEntries]
  | cons entry rest ih =>
      rw [overlayEntries]
      exact ih (distinct.insert _ _)

theorem keys_overlayEntries : ∀ key ∈ (overlayEntries below above).map Prod.fst,
    key ∈ below.map Prod.fst ∨ key ∈ above.map Prod.fst := by
  induction above generalizing below with
  | nil => rw [overlayEntries]; exact fun key => .inl
  | cons entry rest ih =>
      obtain ⟨own, value⟩ := entry
      intro key member
      rw [overlayEntries] at member
      rw [List.map_cons, List.mem_cons]
      rcases ih key member with earlier | later
      · exact (mem_keys_insert earlier).imp_right .inl
      · exact .inr (.inr later)

theorem overlay_other (single : ∀ entries, value ≠ .map entries) : overlay under value = value := by
  cases value with
  | map entries => exact absurd rfl (single entries)
  | _ => rw [overlay]; simp

def entriesOf : Option Value → Entries
  | some (.map entries) => entries
  | _ => []

def field? (block : Option Value) (name : String) : Option Value := lookup (entriesOf block) name

/-! ## Entries set one after the other -/

theorem lookup_foldl_insert (renamed : Value → Value) (distinct : Distinct entries)
    (keeps : ∀ entry ∈ entries, renamed entry.1 = .text name ↔ entry.1 = .text name) :
    lookup (entries.foldl (fun found entry => insert found (renamed entry.1) entry.2) before) name =
      (lookup entries name).or (lookup before name) := by
  induction entries generalizing before with
  | nil => rfl
  | cons entry rest ih =>
      obtain ⟨key, value⟩ := entry
      have own := keeps _ List.mem_cons_self
      rw [List.foldl_cons, ih (List.Pairwise.of_cons distinct) fun entry later =>
        keeps entry (List.mem_cons_of_mem _ later)]
      by_cases same : key = .text name
      · have renamedToo := own.mpr same
        obtain rfl := same
        rw [renamedToo, lookup_insert_self, distinct.lookup_cons rfl, lookup_cons_self]
        rfl
      · rw [lookup_insert_other (mt own.mp same), lookup_cons_other same]

theorem lookup_addBlocks (distinct : Distinct entries) :
    lookup (addBlocks before entries) name = (lookup entries name).or (lookup before name) :=
  lookup_foldl_insert id distinct fun _ _ => .rfl

theorem distinct_addBlocks (distinct : Distinct before) : Distinct (addBlocks before entries) := by
  induction entries generalizing before with
  | nil => exact distinct
  | cons entry rest ih => exact ih (distinct.insert _ _)

theorem keys_addBlocks : ∀ key ∈ (addBlocks before entries).map Prod.fst,
    key ∈ before.map Prod.fst ∨ key ∈ entries.map Prod.fst := by
  induction entries generalizing before with
  | nil => exact fun key => .inl
  | cons entry rest ih =>
      intro key member
      rw [List.map_cons, List.mem_cons]
      rcases ih key member with earlier | later
      · exact (mem_keys_insert earlier).imp_right .inl
      · exact .inr (.inr later)

def known (names : List String) : Value → Value
  | .text name => .text ((names.find? fun field => field = name.map smallLetter).getD name)
  | key => key

theorem renameFields_eq (names : List String) (entries : Entries) :
    renameFields names entries =
      entries.foldl (fun found entry => insert found (known names entry.1) entry.2) [] := by
  rw [renameFields]
  congr 1
  funext found entry
  obtain ⟨key, value⟩ := entry
  cases key <;> rfl

def Plain (names : List String) (entries : Entries) : Prop :=
  ∀ name, .text name ∈ entries.map Prod.fst → name.map smallLetter ∈ names →
    name.map smallLetter = name

theorem Plain.known {names : List String} (plain : Plain names entries)
    (member : key ∈ entries.map Prod.fst) : known names key = key := by
  cases key with
  | text name =>
      rw [Settings.known]
      cases found : names.find? fun field => field = name.map smallLetter with
      | none => rfl
      | some field =>
          obtain rfl : field = name.map smallLetter := by simpa using List.find?_some found
          rw [Option.getD_some, plain name member (List.mem_of_find?_eq_some found)]
  | _ => rfl

theorem lookup_renameFields {names : List String} (distinct : Distinct entries)
    (plain : Plain names entries) : lookup (renameFields names entries) name = lookup entries name := by
  have keeps : ∀ entry ∈ entries, known names entry.1 = .text name ↔ entry.1 = .text name :=
    fun entry member => by rw [plain.known (List.mem_map_of_mem member)]
  rw [renameFields_eq, lookup_foldl_insert _ distinct keeps]
  exact Option.or_none

end Cadence.Settings
