import ActionString.Proofs.Onward
import ActionString.Proofs.Pieces
import ActionString.Proofs.Settling

/-!
# What leads to a command

Whether a text is accepted is decided behind its last command. The text before a command leads to
it: whichever command begins there with the same character, the clauses and commands before it are
read as they were. So a text is led to the command at which its reading stops, and every other
command there that is read to the end makes an accepted text.
-/

namespace ActionString.Grammar

open Rule

variable {lead text rest : List Char} {state : List Clause × Trigger × List Phrase}

/-- A text leads to commands that begin with a character: with such a command behind it, it is read
as the clauses and commands before, the command and what comes behind it. -/
def Leads (lead : List Char) (state : List Clause × Trigger × List Phrase) (first : Option Char) :
    Prop :=
  ∀ ⦃body value rest more last⦄, body.head? = first →
    (phrase body).result = some (value, rest) → (onward rest).result = some (more, last) →
      (separated ";" clause (lead ++ body)).result =
        some (joined state (value :: more.1, more.2), last)

/-- A text with a command behind it is accepted when and only when what is left behind the command
can come at the end, as the clauses with the command and what comes behind it. -/
theorem Leads.read_eq_ok_iff {body last : List Char} {first : Option Char} {value : Phrase}
    {more : List Phrase × List Clause} {clauses : List Clause} (leads : Leads lead state first)
    (begins : body.head? = first) (found : (phrase body).result = some (value, rest))
    (onwards : (onward rest).result = some (more, last)) :
    read (lead ++ body) = .ok clauses ↔
      Closes last ∧ joined state (value :: more.1, more.2) = clauses := by
  rw [Grammar.read_eq_ok_iff]
  constructor
  · rintro ⟨other, list, closes⟩
    rw [leads begins found onwards] at list
    cases list
    exact ⟨closes, rfl⟩
  · rintro ⟨closes, rfl⟩
    exact ⟨last, leads begins found onwards, closes⟩

/-- A text with a command behind it is accepted when what is left behind the command can come at the
end. -/
theorem Leads.read_eq_ok {body last : List Char} {first : Option Char} {value : Phrase}
    {more : List Phrase × List Clause} (leads : Leads lead state first) (begins : body.head? = first)
    (found : (phrase body).result = some (value, rest))
    (onwards : (onward rest).result = some (more, last)) (closes : Closes last) :
    read (lead ++ body) = .ok (joined state (value :: more.1, more.2)) :=
  (leads.read_eq_ok_iff begins found onwards).mpr ⟨closes, rfl⟩

/-- A trigger is spelt at the front of the text that it is read from. -/
theorem exists_spelt_of_trigger {kind : Trigger}
    (found : (trigger text).result = some (kind, rest)) :
    ∃ spelt, text = spelt ++ rest ∧
      spelt.map Char.toLower = kind.word.toList.map Char.toLower := by
  obtain ⟨other, -, read⟩ := exists_of_result_firstOf_map found
  rw [result_bind, Option.bind_eq_some_iff] at read
  obtain ⟨⟨spelt, left⟩, word, same⟩ := read
  cases same
  have spelling := stripFolded_of_result_keyword word
  exact ⟨spelt, Text.eq_append_of_stripFolded spelling, Text.map_toLower_of_stripFolded spelling⟩

/-- Nothing is dropped from a text that begins like what is left when something is dropped. -/
theorem dropWhile_of_head {accepts : Char → Bool} {body : List Char}
    (same : body.head? = (text.dropWhile accepts).head?) : body.dropWhile accepts = body := by
  cases body with
  | nil => rfl
  | cons c body =>
    have stop := List.head?_dropWhile_not accepts text
    rw [← same] at stop
    change accepts c = false at stop
    exact List.dropWhile_cons_of_neg (by simp [stop])

/-- What is dropped in front of a text is dropped in front of every text that begins alike. -/
theorem exists_dropWhile_eq (accepts : Char → Bool) (text : List Char) :
    ∃ front, text = front ++ text.dropWhile accepts ∧ (∀ c ∈ front, accepts c = true) ∧
      ∀ body : List Char, body.head? = (text.dropWhile accepts).head? →
        (front ++ body).dropWhile accepts = body := by
  have accepted : ∀ c ∈ text.takeWhile accepts, accepts c = true :=
    fun c member => List.mem_takeWhile_imp member
  refine ⟨text.takeWhile accepts, List.takeWhile_append_dropWhile.symm, accepted,
    fun body same => ?_⟩
  rw [List.dropWhile_append_of_pos accepted, dropWhile_of_head same]

/-- Texts that begin with the spelling of a trigger begin alike. -/
theorem head?_spelt {kind : Trigger} {spelt : List Char}
    (same : spelt.map Char.toLower = kind.word.toList.map Char.toLower) (first second : List Char) :
    (spelt ++ first).head? = (spelt ++ second).head? := by
  obtain ⟨c, front, -⟩ := solid_trigger same
  obtain ⟨rest, rfl⟩ := List.head?_eq_some_iff.mp front
  rfl

/-- A trigger leads to the first command of its clause. -/
theorem exists_leads_of_trigger {kind : Trigger} {middle : List Char}
    (begun : (trigger (strip text)).result = some (kind, middle)) :
    ∃ lead, text = lead ++ strip middle ∧ Leads lead ([], kind, []) (strip middle).head? := by
  obtain ⟨spelt, front, same⟩ := exists_spelt_of_trigger begun
  obtain ⟨gap, whole, -, start⟩ := exists_dropWhile_eq isSpace text
  obtain ⟨between, cut, -, next⟩ := exists_dropWhile_eq isSpace middle
  change text = gap ++ strip text at whole
  change middle = between ++ strip middle at cut
  refine ⟨gap ++ spelt ++ between, ?_, fun body value rest more last head found onwards => ?_⟩
  · rw [List.append_assoc, List.append_assoc, ← cut, ← front, ← whole]
  · have stripped : strip (gap ++ (spelt ++ (between ++ body))) = spelt ++ (between ++ body) := by
      refine start _ ?_
      change _ = (strip text).head?
      rw [front]
      exact head?_spelt same _ _
    have command : (phrase (strip (between ++ body))).result = some (value, rest) := by
      rw [strip, next body head, found]
    have list := result_someClauses (result_trigger_of_same same (between ++ body)) command
    rw [onwards] at list
    rw [result_separated_eq, List.append_assoc, List.append_assoc, stripped, list]
    rfl

/-- What stands before a separator behind a command is read alike whatever comes after the
separator. -/
theorem exists_settled_front {value : Phrase} {d : Char} {after : List Char}
    (stop : d ∈ Stops.both.chars) (found : (phrase text).result = some (value, rest))
    (stripped : strip rest = d :: after) :
    ∃ front gap, text = front ++ d :: after ∧ rest = gap ++ d :: after ∧
      (∀ more, strip (gap ++ d :: more) = d :: more) ∧ Settled phrase front ∧
      ∀ more, (phrase (front ++ d :: more)).result = some (value, gap ++ d :: more) := by
  obtain ⟨gap, whole, -, start⟩ := exists_dropWhile_eq isSpace rest
  change rest = gap ++ strip rest at whole
  rw [stripped] at whole
  obtain ⟨front, split⟩ := Forward.suffix found
  have text_eq : text = front ++ gap ++ d :: after := by rw [← split, whole, List.append_assoc]
  have ends (more : List Char) : Stops.both.At (d :: more) := Stops.at_cons stop more
  have settled : Settled phrase (front ++ gap) := by
    rw [text_eq] at found
    refine settled_of_result (ends after) (List.cons_ne_nil d after) found ?_
    rw [whole, List.length_append]
    omega
  have read : (phrase (front ++ gap)).result = some (value, gap) := by
    have longer := settled.result (ends after)
    rw [← text_eq, found, eq_comm, Option.map_eq_some_iff] at longer
    obtain ⟨⟨other, left⟩, first, same⟩ := longer
    rw [Prod.mk.injEq, whole, List.append_cancel_right_eq] at same
    obtain ⟨rfl, rfl⟩ := same
    exact first
  refine ⟨front ++ gap, gap, text_eq, whole, fun more => start _ ?_, settled, fun more => ?_⟩
  · change _ = (strip rest).head?
    rw [stripped]
    rfl
  · rw [settled.result (ends more), read]
    rfl

/-- A text begins with its front, or with what comes after an empty one. -/
theorem head?_append_cons (front : List Char) (d : Char) (first second : List Char) :
    (front ++ d :: first).head? = (front ++ d :: second).head? := by
  cases front <;> rfl

/-- Behind a command and a comma, a lead goes on to the next command. -/
theorem Leads.comma {value : Phrase} (leads : Leads lead state text.head?)
    (found : (phrase text).result = some (value, rest)) (comma : (strip rest).head? = some ',') :
    ∃ longer, lead ++ text = longer ++ passOver ',' rest ∧
      Leads longer (state.1, state.2.1, state.2.2 ++ [value]) (passOver ',' rest).head? := by
  obtain ⟨after, stripped⟩ := List.head?_eq_some_iff.mp comma
  obtain ⟨front, gap, rfl, -, start, -, read⟩ := exists_settled_front (by decide) found stripped
  obtain ⟨between, cut, -, next⟩ := exists_dropWhile_eq (fun c => isSpace c || c == ',') after
  have passed : passOver ',' rest = passOver ',' after := by
    rw [← passOver_strip, stripped, passOver_cons]
  change after = between ++ passOver ',' after at cut
  rw [passed]
  refine ⟨lead ++ front ++ ',' :: between, ?_, fun body last left more final head command => ?_⟩
  · rw [List.append_assoc, List.append_assoc, List.cons_append, ← cut]
  · intro onwards
    have behind : passOver ',' (gap ++ ',' :: (between ++ body)) = body := by
      rw [← passOver_strip, start, passOver_cons]
      exact next body head
    have go := result_onward_of_comma (by rw [start (between ++ body)]; rfl)
      (by rw [behind, command])
    rw [onwards] at go
    have accepted := leads (head?_append_cons front ',' _ _) (read (between ++ body)) go
    simpa [joined, List.append_assoc] using accepted

/-- Behind a command, a semicolon and a trigger, a lead goes on to the first command of the
clause. -/
theorem Leads.semicolon {value : Phrase} (leads : Leads lead state text.head?)
    (found : (phrase text).result = some (value, rest)) (semicolon : (strip rest).head? = some ';')
    {kind : Trigger} {middle : List Char}
    (begun : (trigger (passOver ';' rest)).result = some (kind, middle)) :
    ∃ longer, lead ++ text = longer ++ strip middle ∧
      Leads longer (state.1 ++ [⟨state.2.1, state.2.2 ++ [value]⟩], kind, [])
        (strip middle).head? := by
  obtain ⟨after, stripped⟩ := List.head?_eq_some_iff.mp semicolon
  obtain ⟨front, gap, rfl, -, start, -, read⟩ := exists_settled_front (by decide) found stripped
  have passed : passOver ';' rest = passOver ';' after := by
    rw [← passOver_strip, stripped, passOver_cons]
  obtain ⟨between, cut, -, next⟩ := exists_dropWhile_eq (fun c => isSpace c || c == ';') after
  obtain ⟨spelt, shape, same⟩ := exists_spelt_of_trigger begun
  obtain ⟨spaces, middleCut, -, command⟩ := exists_dropWhile_eq isSpace middle
  change after = between ++ passOver ';' after at cut
  change middle = spaces ++ strip middle at middleCut
  refine ⟨lead ++ front ++ ';' :: (between ++ spelt ++ spaces), ?_,
    fun body last left more final head first => ?_⟩
  · simp only [List.append_assoc, List.cons_append]
    rw [← middleCut, ← shape, passed, ← cut]
  · intro onwards
    have tail : passOver ';' (gap ++ ';' :: (between ++ (spelt ++ (spaces ++ body)))) =
        spelt ++ (spaces ++ body) := by
      rw [← passOver_strip, start, passOver_cons]
      refine next _ ?_
      change _ = (passOver ';' after).head?
      rw [← passed, shape]
      exact head?_spelt same _ _
    have begunAgain : (trigger (passOver ';' (gap ++ ';' :: (between ++ (spelt ++
        (spaces ++ body)))))).result = some (kind, spaces ++ body) := by
      rw [tail]
      exact result_trigger_of_same same _
    have commandAgain : (phrase (strip (spaces ++ body))).result = some (last, left) := by
      rw [strip, command body head, first]
    have go := result_onward_of_semicolon (by rw [start]; rfl) begunAgain commandAgain
    rw [onwards] at go
    have accepted := leads (head?_append_cons front ';' _ _)
      (read (between ++ (spelt ++ (spaces ++ body)))) go
    simpa [joined, List.append_assoc] using accepted

end ActionString.Grammar
