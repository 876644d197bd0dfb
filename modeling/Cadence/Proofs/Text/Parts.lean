import Cadence.Text.Blank
import Cadence.Text.Fields
import Mathlib.Data.List.TakeWhile

namespace Cadence.Text

variable {separator c : Char} {text first rest more : List Char} {others : List (List Char)}
  {drops : Char → Bool}

theorem fields_ne_nil (separator : Char) (text : List Char) : fields separator text ≠ [] := by
  cases text with
  | nil => simp [fields]
  | cons c rest =>
      unfold fields
      split
      · simp
      · split <;> simp

theorem fields_whole (absent : separator ∉ text) : fields separator text = [text] := by
  induction text with
  | nil => rfl
  | cons c rest ih =>
      simp only [List.mem_cons, not_or] at absent
      simp [fields, ih absent.2, Ne.symm absent.1]

theorem fields_append (absent : separator ∉ first) (more : List Char) :
    fields separator (first ++ separator :: more) = first :: fields separator more := by
  induction first with
  | nil =>
      obtain ⟨head, tail, parts⟩ := List.exists_cons_of_ne_nil (fields_ne_nil separator more)
      simp [fields, parts]
  | cons c rest ih =>
      simp only [List.mem_cons, not_or] at absent
      simp [fields, ih absent.2, Ne.symm absent.1]

theorem fields_cons (parts : fields separator text = first :: others) :
    separator ∉ first ∧ (text = first ∧ others = [] ∨
      ∃ more, text = first ++ separator :: more ∧ fields separator more = others) := by
  induction text generalizing first with
  | nil =>
      simp only [fields, List.cons.injEq] at parts
      obtain ⟨rfl, rfl⟩ := parts
      simp
  | cons c rest ih =>
      obtain ⟨head, tail, later⟩ := List.exists_cons_of_ne_nil (fields_ne_nil separator rest)
      simp only [fields, later] at parts
      split at parts
      · next same =>
          simp only [List.cons.injEq] at parts
          obtain ⟨rfl, rfl⟩ := parts
          exact ⟨by simp, .inr ⟨rest, by simp [same], later⟩⟩
      · next different =>
          simp only [List.cons.injEq] at parts
          obtain ⟨rfl, rfl⟩ := parts
          obtain ⟨absent, split⟩ := ih later
          refine ⟨by simp [absent, Ne.symm different], ?_⟩
          rcases split with ⟨whole, none⟩ | ⟨more, whole, parts⟩
          · exact .inl ⟨by rw [whole], none⟩
          · exact .inr ⟨more, by rw [whole, List.cons_append], parts⟩

def join (separator : Char) (first : List Char) (others : List (List Char)) : List Char :=
  first ++ others.flatMap (separator :: ·)

theorem fields_join (absent : separator ∉ first) (absentToo : ∀ part ∈ others, separator ∉ part) :
    fields separator (join separator first others) = first :: others := by
  induction others generalizing first with
  | nil => simpa [join] using fields_whole absent
  | cons part rest ih =>
      have later := ih (absentToo part (by simp)) fun other among => absentToo other (by simp [among])
      rw [join, List.flatMap_cons, List.cons_append, fields_append absent]
      exact congrArg (first :: ·) later

theorem join_fields (parts : fields separator text = first :: others) :
    text = join separator first others ∧ ∀ part ∈ first :: others, separator ∉ part := by
  induction others generalizing text first with
  | nil =>
      obtain ⟨absent, ⟨whole, -⟩ | ⟨more, -, later⟩⟩ := fields_cons parts
      · exact ⟨by simp [join, whole], by simpa using absent⟩
      · exact absurd later (fields_ne_nil _ _)
  | cons part rest ih =>
      obtain ⟨absent, ⟨-, none⟩ | ⟨more, whole, later⟩⟩ := fields_cons parts
      · cases none
      · obtain ⟨joined, absentToo⟩ := ih later
        refine ⟨by rw [whole, joined]; simp [join], ?_⟩
        intro other among
        rcases List.mem_cons.mp among with rfl | behind
        · exact absent
        · exact absentToo other behind

theorem getLast?_join {part : List Char} (present : part ≠ []) (before : List (List Char)) :
    (join separator first (before ++ [part])).getLast? = part.getLast? := by
  obtain ⟨c, rest, rfl⟩ := List.exists_cons_of_ne_nil present
  simp [join, List.flatMap_append, List.getLast?_append, List.getLast?_cons]

theorem mem_fields (member : c ∈ text) : c = separator ∨ ∃ part ∈ fields separator text, c ∈ part := by
  induction text with
  | nil => cases member
  | cons head rest ih =>
      obtain ⟨first, others, later⟩ := List.exists_cons_of_ne_nil (fields_ne_nil separator rest)
      rw [later] at ih
      by_cases same : head = separator
      · have parts : fields separator (head :: rest) = [] :: first :: others := by
          simp [fields, later, same]
        rw [parts]
        rcases List.mem_cons.mp member with rfl | among
        · exact .inl same
        · rcases ih among with here | ⟨part, inside, within⟩
          · exact .inl here
          · exact .inr ⟨part, List.mem_cons_of_mem _ inside, within⟩
      · have parts : fields separator (head :: rest) = (head :: first) :: others := by
          simp [fields, later, same]
        rw [parts]
        rcases List.mem_cons.mp member with rfl | among
        · exact .inr ⟨c :: first, List.mem_cons_self, List.mem_cons_self⟩
        · rcases ih among with here | ⟨part, inside, within⟩
          · exact .inl here
          · rcases List.mem_cons.mp inside with rfl | other
            · exact .inr ⟨head :: part, List.mem_cons_self, List.mem_cons_of_mem _ within⟩
            · exact .inr ⟨part, List.mem_cons_of_mem _ other, within⟩

theorem trim_eq_self (starts : ∀ c, text.head? = some c → drops c = false)
    (ends : ∀ c, text.getLast? = some c → drops c = false) : trim drops text = text := by
  have kept {row : List Char} (head : ∀ c, row.head? = some c → drops c = false) :
      row.dropWhile drops = row := by
    cases row with
    | nil => rfl
    | cons c rest => exact List.dropWhile_cons_of_neg (by simp [head c rfl])
  have reversed : text.reverse.dropWhile drops = text.reverse := by
    apply kept
    intro c last
    rw [List.head?_reverse] at last
    exact ends c last
  rw [trim, kept starts, reversed, List.reverse_reverse]

theorem trim_eq_nil : trim drops text = [] ↔ ∀ c ∈ text, drops c = true := by
  rw [trim, List.reverse_eq_nil_iff, List.dropWhile_eq_nil_iff]
  constructor
  · intro dropped c member
    rw [← List.takeWhile_append_dropWhile (p := drops) (l := text)] at member
    rcases List.mem_append.mp member with front | back
    · exact List.mem_takeWhile_imp front
    · exact dropped c (List.mem_reverse.mpr back)
  · exact fun all c member => all c ((List.dropWhile_sublist drops).mem (List.mem_reverse.mp member))

theorem trim_last (last : (trim drops text).getLast? = some c) : drops c = false := by
  rw [trim, List.getLast?_reverse] at last
  have head := List.head?_dropWhile_not drops (text.dropWhile drops).reverse
  rw [last] at head
  simpa using head

end Cadence.Text
