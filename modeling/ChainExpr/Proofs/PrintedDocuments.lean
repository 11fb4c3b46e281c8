import ChainExpr.Json.Printer
import ChainExpr.Json.Tree
import ChainExpr.Proofs.PrintedNumerals
import Mathlib

namespace ChainExpr

namespace Json

/-- How a character of a written string is read. -/
def pieceOf (c : Char) : Piece :=
  if c = '\x08' ∨ c = '\x0c' ∨ c = '\n' ∨ c = '\r' ∨ c = '\t' ∨ 0x20 ≤ c.toNat then .char c
  else .unit c.toNat

/-- How a written string is read. -/
def pieces (s : String) : List Piece := s.toList.map pieceOf

theorem piecesChars?_unit {n : Nat} (h : n < 0xd800) (rest : List Piece) :
    piecesChars? (.unit n :: rest) = (piecesChars? rest).map (Char.ofNat n :: ·) := by
  have hhigh : isHigh n = false := by simp [isHigh]; omega
  have hlow : isLow n = false := by simp [isLow]; omega
  cases rest with
  | nil => simp [piecesChars?, hhigh, hlow]
  | cons piece rest =>
    cases piece with
    | char c => simp [piecesChars?, hhigh, hlow]
    | unit m => simp [piecesChars?, hhigh, hlow]

theorem piecesChars?_map (cs : List Char) : piecesChars? (cs.map pieceOf) = some cs := by
  induction cs with
  | nil => rfl
  | cons c rest ih =>
    rw [List.map_cons, pieceOf]
    split
    · rw [piecesChars?, ih, Option.map_some]
    · rename_i hcontrol
      have hless : c.toNat < 0xd800 := by omega
      rw [piecesChars?_unit hless, ih, Option.map_some, Char.ofNat_toNat]

/-- The pieces of a written string are its characters. -/
theorem piecesString?_pieces (s : String) : piecesString? (pieces s) = some s := by
  rw [piecesString?, pieces, piecesChars?_map, Option.map_some, String.ofList_toList]

/-- An escape of one letter. -/
theorem readString_letter {letter c : Char} (h : escaped? letter = some c) (hpiece : pieceOf c = .char c)
    (rest : List Char) : readString ('\\' :: letter :: rest) =
      (readString rest).map fun (pieces, rest) => (pieceOf c :: pieces, rest) := by
  have hletter : letter ≠ 'u' := fun heq => by rw [heq] at h; cases h
  rw [readString, h, hpiece]
  · cases readString rest <;> rfl
  · exact fun _ _ _ _ _ heq => absurd heq hletter

/-- An escape by number. -/
theorem readString_number {c : Char} (h : c.toNat < 0x10000) (hpiece : pieceOf c = .unit c.toNat)
    (rest : List Char) : readString (['\\', 'u'] ++ Text.hexDigits c.toNat 4 ++ rest) =
      (readString rest).map fun (pieces, rest) => (pieceOf c :: pieces, rest) := by
  have hnumber := Text.hexNumber?_hexDigits c.toNat 4
  rw [Nat.mod_eq_of_lt h] at hnumber
  simp only [Text.hexDigits, List.nil_append, List.cons_append] at hnumber ⊢
  rw [readString, hnumber, hpiece]
  cases readString rest <;> rfl

theorem readString_plain {c : Char} (hquote : c ≠ '"') (hbackslash : c ≠ '\\') (h : 0x20 ≤ c.toNat)
    (rest : List Char) : readString (c :: rest) =
      (readString rest).map fun (pieces, rest) => (pieceOf c :: pieces, rest) := by
  have hpiece : pieceOf c = .char c := if_pos (by simp [h])
  rw [readString, if_neg (not_or.mpr ⟨hbackslash, not_lt.mpr h⟩), hpiece]
  · exact hquote
  · exact fun _ _ _ _ _ heq => absurd heq hbackslash
  · exact fun _ _ heq => absurd heq hbackslash

/-- A character that is written is read as its piece. -/
theorem readString_escapeChar (c : Char) (rest : List Char) :
    readString (escapeChar c ++ rest) =
      (readString rest).map fun (pieces, rest) => (pieceOf c :: pieces, rest) := by
  rw [escapeChar]
  split_ifs with hquote hbackslash hb hf hn hr ht hcontrol
  · subst hquote
    exact readString_letter rfl rfl rest
  · subst hbackslash
    exact readString_letter rfl rfl rest
  · subst hb
    exact readString_letter rfl rfl rest
  · subst hf
    exact readString_letter rfl rfl rest
  · subst hn
    exact readString_letter rfl rfl rest
  · subst hr
    exact readString_letter rfl rfl rest
  · subst ht
    exact readString_letter rfl rfl rest
  · have hpiece : pieceOf c = .unit c.toNat := if_neg (by simp [hb, hf, hn, hr, ht, hcontrol])
    exact readString_number (by omega) hpiece rest
  · exact readString_plain hquote hbackslash (not_lt.mp hcontrol) rest

/-- A written string is read up to its closing quote. -/
theorem readString_flatMap (cs rest : List Char) :
    readString (cs.flatMap escapeChar ++ '"' :: rest) = some (cs.map pieceOf, rest) := by
  induction cs with
  | nil => rw [List.flatMap_nil, List.nil_append, readString, List.map_nil]
  | cons c more ih =>
    rw [List.flatMap_cons, List.append_assoc, readString_escapeChar, ih, Option.map_some, List.map_cons]

theorem readToken_stringChars (s : String) (rest : List Char) :
    readToken (stringChars s ++ rest) = some (.string (pieces s), rest) := by
  have hread := readString_flatMap s.toList rest
  rw [stringChars, List.cons_append, List.append_assoc, List.singleton_append, readToken, hread]
  rfl

section

variable {c : Char} (h : c = '-' ∨ c.isDigit = true)

include h

theorem ne_of_startsNumeral {other : Char} (hother : ¬(other = '-' ∨ other.isDigit = true)) :
    c ≠ other := fun heq => hother (heq ▸ h)

theorem isSpace_of_startsNumeral : isSpace c = false := by
  simp only [isSpace, Bool.or_eq_false_iff, beq_eq_false_iff_ne, and_assoc]
  exact ⟨ne_of_startsNumeral h (by decide), ne_of_startsNumeral h (by decide),
    ne_of_startsNumeral h (by decide), ne_of_startsNumeral h (by decide)⟩

/-- Anything that starts like a numeral is read as one. -/
theorem readToken_numeral (rest : List Char) :
    readToken (c :: rest) =
      (readNumeral (c :: rest)).map fun (numeral, rest) => (.number numeral, rest) := by
  rw [readToken]
  -- every other token starts with a character of its own
  all_goals exact fun _ heq => ne_of_startsNumeral h (by decide) (List.cons.inj heq).1

end

theorem tokens?_cons {c : Char} {cs rest : List Char} {token : Token} (hblank : isSpace c = false)
    (h : readToken (c :: cs) = some (token, rest)) :
    tokens? (c :: cs) = (tokens? rest).map (token :: ·) := by
  rw [tokens?, hblank, if_neg Bool.false_ne_true]
  split
  · rename_i hnone
    rw [h] at hnone
    cases hnone
  · rename_i other rest' hsome
    rw [h] at hsome
    cases hsome
    rfl

namespace Demand

/-- The value that is complete when a text is read, if the text goes on as demanded. -/
def read? (demand : Demand) (cs : List Char) : Option Tree := (tokens? cs).bind demand.run

theorem run_cons (demand : Demand) (token : Token) (tokens : List Token) :
    demand.run (token :: tokens) = (demand.step token).bind fun next => next.run tokens := by
  cases demand with
  | ending value around => cases around <;> rfl
  | _ => rfl

theorem read?_cons (demand : Demand) {c : Char} {cs rest : List Char} {token : Token}
    (hblank : isSpace c = false) (h : readToken (c :: cs) = some (token, rest)) :
    demand.read? (c :: cs) = (demand.step token).bind fun next => next.read? rest := by
  rw [read?, tokens?_cons hblank h]
  cases htokens : tokens? rest with
  | none => cases demand.step token <;> simp [read?, htokens]
  | some tokens => simp [read?, htokens, run_cons]

/-- A value has to start here. The end of an array may be read instead of it. -/
def Starts (demand : Demand) (around : List Frame) : Prop :=
  ∀ token, token ≠ .closeBracket → demand.step token = startValue around token

theorem starts_start (around : List Frame) : (start around).Starts around := fun _ _ => rfl

theorem starts_firstItem (around : List Frame) : (firstItem around).Starts (.array [] :: around) := by
  intro token htoken
  cases token with
  | closeBracket => exact absurd rfl htoken
  | _ => rfl

theorem Starts.read? {demand next : Demand} {around : List Frame} (hstarts : demand.Starts around)
    {c : Char} {cs rest : List Char} {token : Token} (hblank : isSpace c = false)
    (h : readToken (c :: cs) = some (token, rest)) (hnext : startValue around token = some next) :
    demand.read? (c :: cs) = next.read? rest := by
  have htoken : token ≠ .closeBracket := fun heq => by rw [heq] at hnext; cases hnext
  rw [read?_cons demand hblank h, hstarts token htoken, hnext, Option.bind_some]

theorem read?_stringChars (demand : Demand) (s : String) (rest : List Char) :
    demand.read? (stringChars s ++ rest) =
      (demand.step (.string (pieces s))).bind fun next => next.read? rest :=
  demand.read?_cons rfl (readToken_stringChars s rest)

/-- The name of a field with its colon. -/
theorem read?_name {demand : Demand} {done : List (List Piece × Tree)} {around : List Frame}
    {name : String} (h : demand.step (.string (pieces name)) = some (.colonAfter done (pieces name) around))
    (cs : List Char) : demand.read? (stringChars name ++ ':' :: cs) =
      (start (.object done (pieces name) :: around)).read? cs := by
  rw [read?_stringChars, h, Option.bind_some]
  exact read?_cons _ rfl (rfl : readToken _ = some (.colon, cs))

end Demand

mutual

/-- The tree of the text of a document. -/
def tree : Json → Tree
  | .null => .null
  | .bool b => .bool b
  | .number n => .number n.numeral
  | .string s => .string (pieces s)
  | .array items => .array (itemTrees items)
  | .object fields => .object (fieldTrees fields)

def itemTrees : List Json → List Tree
  | [] => []
  | item :: rest => item.tree :: itemTrees rest

def fieldTrees : List (String × Json) → List (List Piece × Tree)
  | [] => []
  | (name, value) :: rest => (pieces name, value.tree) :: fieldTrees rest

end

theorem itemTrees_eq (items : List Json) : itemTrees items = items.map tree := by
  induction items with
  | nil => rfl
  | cons item rest ih => rw [itemTrees, ih, List.map_cons]

theorem fieldTrees_eq (fields : List (String × Json)) :
    fieldTrees fields = fields.map fun (name, value) => (pieces name, value.tree) := by
  induction fields with
  | nil => rfl
  | cons field rest ih =>
    obtain ⟨name, value⟩ := field
    rw [fieldTrees, ih, List.map_cons]

/-- The number occurs in the document. -/
inductive Mentions (n : JsonNumber) : Json → Prop
  | number : Mentions n (.number n)
  | item {items : List Json} {item : Json} (mem : item ∈ items) (inside : Mentions n item) :
      Mentions n (.array items)
  | field {fields : List (String × Json)} {field : String × Json} (mem : field ∈ fields)
      (inside : Mentions n field.2) : Mentions n (.object fields)

/-- Every number of the document has a numeral. -/
def Numbered (document : Json) : Prop := ∀ n, document.Mentions n → n.WellFormed

theorem endsNumeral_cons {c : Char} (h : c = ',' ∨ c = ']' ∨ c = '\x7d') (rest : List Char) :
    EndsNumeral (c :: rest) := by
  intro d hd
  cases hd
  rcases h with rfl | rfl | rfl <;> decide

theorem endsNumeral_itemsChars (items : List Json) (rest : List Char) :
    EndsNumeral (itemsChars items ++ rest) := by
  cases items with
  | nil => exact endsNumeral_cons (by simp) rest
  | cons item more => exact endsNumeral_cons (by simp) _

theorem endsNumeral_fieldsChars (fields : List (String × Json)) (rest : List Char) :
    EndsNumeral (fieldsChars fields ++ rest) := by
  cases fields with
  | nil => exact endsNumeral_cons (by simp) rest
  | cons field more => exact endsNumeral_cons (by simp) _

theorem numbered_string (s : String) : (string s).Numbered := nofun

theorem numbered_array {items : List Json} (h : ∀ item ∈ items, item.Numbered) :
    (array items).Numbered := by
  intro n hn
  cases hn with
  | item mem inside => exact h _ mem n inside

theorem numbered_object {fields : List (String × Json)} (h : ∀ field ∈ fields, field.2.Numbered) :
    (object fields).Numbered := by
  intro n hn
  cases hn with
  | field mem inside => exact h _ mem n inside

theorem Numbered.item {items : List Json} (h : (array items).Numbered) :
    ∀ item ∈ items, item.Numbered := fun _ hitem n hn => h n (.item hitem hn)

theorem Numbered.field {fields : List (String × Json)} (h : (object fields).Numbered) :
    ∀ field ∈ fields, field.2.Numbered := fun _ hfield n hn => h n (.field hfield hn)

theorem read?_number {n : JsonNumber} (h : n.WellFormed) {demand : Demand} {around : List Frame}
    (hstarts : demand.Starts around) {rest : List Char} (hrest : EndsNumeral rest) :
    demand.read? (n.chars ++ rest) = (Demand.ending (.number n.numeral) around).read? rest := by
  obtain ⟨c, cs, hcs, hc⟩ := h.exists_first
  have hread := h.readNumeral hrest
  rw [hcs, List.cons_append] at hread ⊢
  have htoken := readToken_numeral hc (cs ++ rest)
  rw [hread] at htoken
  exact hstarts.read? (isSpace_of_startsNumeral hc) htoken rfl

mutual

/-- Where a value has to start, the text of a document is read as its tree. -/
theorem read?_chars (document : Json) (h : document.Numbered) {demand : Demand} {around : List Frame}
    (hstarts : demand.Starts around) {rest : List Char} (hrest : EndsNumeral rest) :
    demand.read? (document.chars ++ rest) = (Demand.ending document.tree around).read? rest := by
  cases document with
  | null => exact hstarts.read? rfl (rfl : readToken _ = some (.null, rest)) rfl
  | bool b =>
    cases b with
    | true => exact hstarts.read? rfl (rfl : readToken _ = some (.bool true, rest)) rfl
    | false => exact hstarts.read? rfl (rfl : readToken _ = some (.bool false, rest)) rfl
  | number n => exact read?_number (h n .number) hstarts hrest
  | string s => exact hstarts.read? rfl (readToken_stringChars s rest) rfl
  | array items =>
    have hopen (cs : List Char) : demand.read? ('[' :: cs) = (Demand.firstItem around).read? cs :=
      hstarts.read? rfl (rfl : readToken _ = some (.openBracket, cs)) rfl
    cases items with
    | nil =>
      refine (hopen _).trans ?_
      exact Demand.read?_cons _ rfl (rfl : readToken _ = some (.closeBracket, rest))
    | cons item more =>
      obtain ⟨hitem, hmore⟩ := List.forall_mem_cons.mp h.item
      rw [chars, List.cons_append, List.append_assoc, hopen,
        read?_chars item hitem (Demand.starts_firstItem around) (endsNumeral_itemsChars more rest),
        read?_itemsChars more hmore]
      rfl
  | object fields =>
    have hopen (cs : List Char) : demand.read? ('\x7b' :: cs) = (Demand.firstName around).read? cs :=
      hstarts.read? rfl (rfl : readToken _ = some (.openBrace, cs)) rfl
    cases fields with
    | nil =>
      refine (hopen _).trans ?_
      exact Demand.read?_cons _ rfl (rfl : readToken _ = some (.closeBrace, rest))
    | cons field more =>
      obtain ⟨name, value⟩ := field
      obtain ⟨hvalue, hmore⟩ := List.forall_mem_cons.mp h.field
      rw [chars, List.cons_append, List.append_assoc, List.cons_append, List.append_assoc, hopen,
        Demand.read?_name rfl, read?_chars value hvalue (Demand.starts_start _)
          (endsNumeral_fieldsChars more rest), read?_fieldsChars more hmore]
      rfl

theorem read?_itemsChars (items : List Json) (h : ∀ item ∈ items, item.Numbered) (value : Tree)
    (done : List Tree) (around : List Frame) (rest : List Char) :
    (Demand.ending value (.array done :: around)).read? (itemsChars items ++ rest) =
      (Demand.ending (.array ((value :: done).reverse ++ itemTrees items)) around).read? rest := by
  cases items with
  | nil =>
    rw [itemTrees, List.append_nil]
    exact Demand.read?_cons _ rfl (rfl : readToken _ = some (.closeBracket, rest))
  | cons item more =>
    obtain ⟨hitem, hmore⟩ := List.forall_mem_cons.mp h
    have hcomma (cs : List Char) : (Demand.ending value (.array done :: around)).read? (',' :: cs) =
        (Demand.start (.array (value :: done) :: around)).read? cs :=
      Demand.read?_cons _ rfl (rfl : readToken _ = some (.comma, cs))
    rw [itemsChars, List.cons_append, List.append_assoc, hcomma,
      read?_chars item hitem (Demand.starts_start _) (endsNumeral_itemsChars more rest),
      read?_itemsChars more hmore, itemTrees]
    simp

theorem read?_fieldsChars (fields : List (String × Json)) (h : ∀ field ∈ fields, field.2.Numbered)
    (name : List Piece) (value : Tree) (done : List (List Piece × Tree)) (around : List Frame)
    (rest : List Char) :
    (Demand.ending value (.object done name :: around)).read? (fieldsChars fields ++ rest) =
      (Demand.ending (.object (((name, value) :: done).reverse ++ fieldTrees fields)) around).read?
        rest := by
  cases fields with
  | nil =>
    rw [fieldTrees, List.append_nil]
    exact Demand.read?_cons _ rfl (rfl : readToken _ = some (.closeBrace, rest))
  | cons field more =>
    obtain ⟨other, document⟩ := field
    obtain ⟨hdocument, hmore⟩ := List.forall_mem_cons.mp h
    have hcomma (cs : List Char) :
        (Demand.ending value (.object done name :: around)).read? (',' :: cs) =
          (Demand.nextName ((name, value) :: done) around).read? cs :=
      Demand.read?_cons _ rfl (rfl : readToken _ = some (.comma, cs))
    rw [fieldsChars, List.cons_append, List.append_assoc, List.cons_append, List.append_assoc, hcomma,
      Demand.read?_name rfl, read?_chars document hdocument (Demand.starts_start _)
        (endsNumeral_fieldsChars more rest), read?_fieldsChars more hmore, fieldTrees]
    simp

end

/-- The text of a document is parsed as the tree of the document. -/
theorem Numbered.parse?_text {document : Json} (h : document.Numbered) :
    Tree.parse? document.text = some document.tree := by
  have hends : EndsNumeral [] := by simp [EndsNumeral]
  have hread := read?_chars document h (Demand.starts_start []) hends
  rw [List.append_nil] at hread
  rw [Tree.parse?, text, String.toList_ofList]
  refine hread.trans ?_
  simp [Demand.read?, tokens?, Demand.run]

mutual

/-- How deep arrays and objects are nested in a document. -/
def nesting : Json → Nat
  | .array items => itemsNesting items + 1
  | .object fields => fieldsNesting fields + 1
  | _ => 0

def itemsNesting : List Json → Nat
  | [] => 0
  | item :: rest => max item.nesting (itemsNesting rest)

def fieldsNesting : List (String × Json) → Nat
  | [] => 0
  | (_, value) :: rest => max value.nesting (fieldsNesting rest)

end

theorem itemsNesting_le {items : List Json} {depth : Nat} :
    itemsNesting items ≤ depth ↔ ∀ item ∈ items, item.nesting ≤ depth := by
  induction items with
  | nil => simp [itemsNesting]
  | cons item rest ih => simp [itemsNesting, ih]

theorem fieldsNesting_le {fields : List (String × Json)} {depth : Nat} :
    fieldsNesting fields ≤ depth ↔ ∀ field ∈ fields, field.2.nesting ≤ depth := by
  induction fields with
  | nil => simp [fieldsNesting]
  | cons field rest ih => simp [fieldsNesting, ih]

theorem WellFormed.numbered {document : Json} (h : document.WellFormed) : document.Numbered := by
  intro n hn
  induction hn with
  | number =>
    cases h with
    | number range => exact range
  | item mem _ ih =>
    cases h with
    | array inside => exact ih (inside _ mem)
  | field mem _ ih =>
    cases h with
    | object _ inside => exact ih (inside _ mem)

end Json

namespace JsonNumber

/-- The text of the number is read as the number again. -/
def Survives (n : JsonNumber) : Prop := Json.parse? (Json.number n).text = some (.number n)

variable {n : JsonNumber}

theorem WellFormed.survives_iff (h : n.WellFormed) : n.Survives ↔ n.numeral.value? = some n := by
  rw [Survives, Json.parse?, (Json.WellFormed.number h).numbered.parse?_text]
  simp [Json.tree, Json.Tree.toJson?]

theorem survives_integer {n : Int} (h : (integer n).WellFormed) : (integer n).Survives :=
  h.survives_iff.mpr (value?_integer h)

end JsonNumber

namespace Json

/-- A document in the form in which documents are read, with no number that is lost in its text. -/
structure Legible (document : Json) : Prop where
  wellFormed : document.WellFormed
  floats : ∀ x, document.Mentions (.float x) → (JsonNumber.float x).Survives

section

variable {items : List Json} {fields : List (String × Json)}

theorem Legible.item (h : (array items).Legible) : ∀ item ∈ items, item.Legible := by
  cases h.wellFormed with
  | array inside => exact fun item hitem => ⟨inside item hitem, fun x hx => h.floats x (.item hitem hx)⟩

theorem Legible.field (h : (object fields).Legible) : ∀ field ∈ fields, field.2.Legible := by
  cases h.wellFormed with
  | object _ inside =>
    exact fun field hfield => ⟨inside field hfield, fun x hx => h.floats x (.field hfield hx)⟩

/-- Integers are never lost. -/
theorem Legible.survives {n : JsonNumber} (h : (number n).Legible) : n.Survives := by
  cases n with
  | integer n => exact JsonNumber.survives_integer (h.wellFormed.numbered _ .number)
  | float x => exact h.floats x .number

theorem Legible.sortFields_eq (h : (object fields).Legible) : sortFields fields = fields := by
  cases h.wellFormed with
  | object names _ => exact sortFields_of_increasing names

end

mutual

/-- The tree of a document becomes the document again, unless it is nested too deep. -/
theorem toJson?_tree (document : Json) (h : document.Legible) (depth : Nat) :
    document.tree.toJson? depth = if document.nesting ≤ depth then some document else none := by
  cases document with
  | null => rfl
  | bool b => rfl
  | number n =>
    have hvalue := (h.wellFormed.numbered n .number).survives_iff.mp h.survives
    rw [tree, Tree.toJson?, hvalue]
    rfl
  | string s =>
    rw [tree, Tree.toJson?, piecesString?_pieces]
    rfl
  | array items =>
    cases depth with
    | zero => simp [tree, Tree.toJson?, nesting]
    | succ depth =>
      rw [tree, Tree.toJson?, itemsJson?_trees items h.item, nesting]
      by_cases hdepth : itemsNesting items ≤ depth <;> simp [hdepth]
  | object fields =>
    cases depth with
    | zero => simp [tree, Tree.toJson?, nesting]
    | succ depth =>
      rw [tree, Tree.toJson?, fieldsJson?_trees fields h.field, nesting]
      by_cases hdepth : fieldsNesting fields ≤ depth <;> simp [hdepth, ofFields, h.sortFields_eq]

theorem itemsJson?_trees (items : List Json) (h : ∀ item ∈ items, item.Legible) (depth : Nat) :
    Tree.itemsJson? depth (itemTrees items) =
      if itemsNesting items ≤ depth then some items else none := by
  cases items with
  | nil => rfl
  | cons item rest =>
    obtain ⟨hitem, hrest⟩ := List.forall_mem_cons.mp h
    rw [itemTrees, Tree.itemsJson?, toJson?_tree item hitem, itemsJson?_trees rest hrest, itemsNesting]
    by_cases hdepth : item.nesting ≤ depth <;> by_cases hdepth' : itemsNesting rest ≤ depth <;>
      simp [hdepth, hdepth']

theorem fieldsJson?_trees (fields : List (String × Json)) (h : ∀ field ∈ fields, field.2.Legible)
    (depth : Nat) : Tree.fieldsJson? depth (fieldTrees fields) =
      if fieldsNesting fields ≤ depth then some fields else none := by
  cases fields with
  | nil => rfl
  | cons field rest =>
    obtain ⟨name, value⟩ := field
    obtain ⟨hvalue, hrest⟩ := List.forall_mem_cons.mp h
    rw [fieldTrees, Tree.fieldsJson?, piecesString?_pieces, toJson?_tree value hvalue,
      fieldsJson?_trees rest hrest, fieldsNesting]
    by_cases hdepth : value.nesting ≤ depth <;> by_cases hdepth' : fieldsNesting rest ≤ depth <;>
      simp [hdepth, hdepth']

end

/-- A document is read again from its text, unless it is nested too deep. -/
theorem Legible.parse?_text {document : Json} (h : document.Legible) :
    parse? document.text = if document.nesting ≤ depthLimit then some document else none := by
  rw [parse?, h.wellFormed.numbered.parse?_text, Option.bind_some, toJson?_tree document h]

end Json

end ChainExpr
