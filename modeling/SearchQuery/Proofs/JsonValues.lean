import Mathlib.Tactic.SplitIfs
import SearchQuery.Proofs.Unambiguous
import SearchQuery.Query.Json

/-!
# What a JSON text says

The JSON text of a query loses nothing.  It is the text of a JSON value, which is a tree of strings,
arrays and objects, and the argument has two halves that meet in that tree:

* the text tells the value: `Json.Value.textAt_selfDelimiting`, in both layouts, by induction on the
  value;
* the value tells the query: `Query.value_inj`, by induction on the query.

## Texts

A string ends at the first quote that is not part of an escaped character.  `unescape` takes one
character off the front of what `escape` wrote, so that no escaped character is the beginning of
another.  Arrays and objects are laid out by the same rule, so that one lemma speaks for both
(`enclose_inj`): behind a part stands either a comma or what closes the whole.

## Values

The first key of the object of a clause tells what kind of clause it is.  The members behind it may
each be missing, but they come in a fixed order and under different keys.
-/

namespace SearchQuery

namespace Json

/-- A JSON value.  The numbers of a query are kept as they are written, so there are none here. -/
inductive Value where
  | null
  | string (text : String)
  | array (parts : List Value)
  | object (members : List (String × Value))

namespace Value

mutual

/-- The text of a value at a level of nesting. -/
def textAt (layout : JsonLayout) (level : Nat) : Value → String
  | null => "null"
  | string text => Json.string text
  | array parts => Json.array layout level (textsAt layout (level + 1) parts)
  | object members => Json.object layout level (membersAt layout (level + 1) members)

/-- The texts of values at one level of nesting. -/
def textsAt (layout : JsonLayout) (level : Nat) : List Value → List String
  | [] => []
  | value :: more => value.textAt layout level :: textsAt layout level more

/-- Members with the texts of their values at one level of nesting. -/
def membersAt (layout : JsonLayout) (level : Nat) : List (String × Value) → List Member
  | [] => []
  | (key, value) :: more => (key, value.textAt layout level) :: membersAt layout level more

end

/-- The text of a member at a level of nesting. -/
def memberAt (layout : JsonLayout) (level : Nat) (member : String × Value) : String :=
  Json.string member.1 ++ layout.colon ++ member.2.textAt layout level

lemma textsAt_eq (layout : JsonLayout) (level : Nat) (parts : List Value) :
    textsAt layout level parts = parts.map (textAt layout level) := by
  induction parts with
  | nil => rfl
  | cons value more ih => rw [textsAt, ih, List.map_cons]

lemma membersAt_eq (layout : JsonLayout) (level : Nat) (members : List (String × Value)) :
    membersAt layout level members =
      members.map fun member => (member.1, member.2.textAt layout level) := by
  induction members with
  | nil => rfl
  | cons member more ih => rw [membersAt, ih, List.map_cons]

lemma textAt_array (layout : JsonLayout) (level : Nat) (parts : List Value) :
    (array parts).textAt layout level =
      layout.enclose level "[" "]" (parts.map (textAt layout (level + 1))) := by
  rw [textAt, textsAt_eq, Json.array]

lemma textAt_object (layout : JsonLayout) (level : Nat) (members : List (String × Value)) :
    (object members).textAt layout level =
      layout.enclose level "\x7b" "\x7d" (members.map (memberAt layout (level + 1))) := by
  rw [textAt, membersAt_eq, Json.object, List.map_map]
  rfl

end Value

/-! ## Strings -/

/-- The number of a hexadecimal digit. -/
def hexValue (c : Char) : Nat := if c.toNat < 58 then c.toNat - 48 else c.toNat - 87

/-- The character that stands escaped at the front of a text, and what is left. -/
def unescape : List Char → Option (Char × List Char)
  | '\\' :: 'u' :: _ :: _ :: high :: low :: rest =>
    some (Char.ofNat (16 * hexValue high + hexValue low), rest)
  | '\\' :: 'b' :: rest => some ('\x08', rest)
  | '\\' :: 't' :: rest => some ('\t', rest)
  | '\\' :: 'n' :: rest => some ('\n', rest)
  | '\\' :: 'f' :: rest => some ('\x0c', rest)
  | '\\' :: 'r' :: rest => some ('\r', rest)
  | '\\' :: c :: rest => some (c, rest)
  | c :: rest => some (c, rest)
  | [] => none

lemma hexValue_hexDigit : ∀ n < 16, hexValue (hexDigit n) = n := by decide

lemma unescape_escape (c : Char) (rest : List Char) :
    unescape (escape c ++ rest) = some (c, rest) := by
  unfold escape
  split_ifs with quote backslash b t n f r control
  · rw [quote]; rfl
  · rw [backslash]; rfl
  · rw [b]; rfl
  · rw [t]; rfl
  · rw [n]; rfl
  · rw [f]; rfl
  · rw [r]; rfl
  · have high := hexValue_hexDigit (c.toNat / 16) (by omega)
    have low := hexValue_hexDigit (c.toNat % 16) (by omega)
    have whole : 16 * (c.toNat / 16) + c.toNat % 16 = c.toNat := by omega
    simp only [List.cons_append, List.nil_append, unescape, high, low, whole, Char.ofNat_toNat]
  · rw [List.singleton_append, unescape]
    -- the other patterns begin with a backslash
    all_goals
      intros
      contradiction

/-- No escaped character is the beginning of another. -/
lemma escape_append_inj {c d : Char} {r s : List Char} (h : escape c ++ r = escape d ++ s) :
    c = d ∧ r = s := by
  have taken := unescape_escape c r
  rw [h, unescape_escape] at taken
  obtain ⟨rfl, rfl⟩ := Prod.mk.inj (Option.some.inj taken)
  exact ⟨rfl, rfl⟩

/-- No escaped character begins with a quote. -/
lemma escape_append_ne_quote (c : Char) (r s : List Char) : escape c ++ r ≠ '"' :: s := by
  intro h
  have taken := unescape_escape c r
  rw [h] at taken
  obtain ⟨rfl, -⟩ := Prod.mk.inj (Option.some.inj taken)
  exact absurd h (by simp [escape])

lemma flatMap_escape_inj {t u r s : List Char}
    (h : t.flatMap escape ++ '"' :: r = u.flatMap escape ++ '"' :: s) : t = u ∧ r = s := by
  induction t generalizing u with
  | nil =>
    cases u with
    | nil => exact ⟨rfl, (List.cons.inj h).2⟩
    | cons d u =>
      rw [List.flatMap_cons, List.append_assoc] at h
      exact absurd h.symm (escape_append_ne_quote d _ _)
  | cons c t ih =>
    cases u with
    | nil =>
      rw [List.flatMap_cons, List.append_assoc] at h
      exact absurd h (escape_append_ne_quote c _ _)
    | cons d u =>
      simp only [List.flatMap_cons, List.append_assoc] at h
      obtain ⟨rfl, htail⟩ := escape_append_inj h
      obtain ⟨rfl, rfl⟩ := ih htail
      exact ⟨rfl, rfl⟩

lemma toList_string (text : String) :
    (Json.string text).toList = '"' :: (text.toList.flatMap escape ++ ['"']) := by
  simp [Json.string]

lemma string_selfDelimiting (text : String) : SelfDelimiting Json.string text := by
  intro other r s h
  simp only [toList_string, List.cons_append, List.append_assoc, List.nil_append] at h
  obtain ⟨htext, rfl⟩ := flatMap_escape_inj (List.cons.inj h).2
  exact ⟨String.toList_inj.1 htext, rfl⟩

/-! ## Parts between brackets -/

section Enclose

variable {α : Type} {text : α → String} {layout : JsonLayout} {level : Nat}

/-- What stands between the last part and the closing bracket begins with no comma. -/
lemma lineBreak_append_ne_comma {closing r s : List Char} {c : Char} (hc : c ≠ ',')
    (hclosing : closing = [c]) : (layout.lineBreak level).toList ++ (closing ++ r) ≠ ',' :: s := by
  cases layout <;> simp [JsonLayout.lineBreak, hclosing, hc]

/-- Parts that each follow a comma end at the closing bracket. -/
lemma commaParts_inj {gap stop r s : List Char} {as bs : List α}
    (parts : ∀ a ∈ as, SelfDelimiting text a)
    (hstop : ∀ x y, stop ++ x ≠ ',' :: y)
    (h : as.flatMap (fun a => ',' :: (gap ++ (text a).toList)) ++ (stop ++ r) =
      bs.flatMap (fun a => ',' :: (gap ++ (text a).toList)) ++ (stop ++ s)) : as = bs ∧ r = s := by
  induction as generalizing bs with
  | nil =>
    cases bs with
    | nil => exact ⟨rfl, List.append_cancel_left h⟩
    | cons b bs => exact absurd h (hstop _ _)
  | cons a as ih =>
    cases bs with
    | nil => exact absurd h.symm (hstop _ _)
    | cons b bs =>
      simp only [List.flatMap_cons, List.cons_append, List.append_assoc, List.cons.injEq, true_and,
        List.append_cancel_left_eq] at h
      obtain ⟨rfl, htail⟩ := parts a List.mem_cons_self h
      obtain ⟨rfl, rfl⟩ := ih (fun a ha => parts a (List.mem_cons_of_mem _ ha)) htail
      exact ⟨rfl, rfl⟩

lemma toList_intercalate_cons (separator first : String) (more : List String) :
    (String.intercalate separator (first :: more)).toList =
      first.toList ++ more.flatMap fun part => separator.toList ++ part.toList := by
  rw [String.toList_intercalate, List.map_cons]
  induction more generalizing first with
  | nil => simp
  | cons second more ih =>
    rw [List.map_cons, List.intercalate_cons_cons, ih, List.flatMap_cons, List.append_assoc,
      List.append_assoc]

lemma toList_enclose_nil (opening closing : String) :
    (layout.enclose level opening closing []).toList = opening.toList ++ closing.toList := by
  simp [JsonLayout.enclose]

lemma toList_enclose_cons (opening closing : String) (a : α) (as : List α) :
    (layout.enclose level opening closing ((a :: as).map text)).toList =
      opening.toList ++ ((layout.lineBreak (level + 1)).toList ++ ((text a).toList ++
        (as.flatMap (fun a => ',' :: ((layout.lineBreak (level + 1)).toList ++ (text a).toList)) ++
          ((layout.lineBreak level).toList ++ closing.toList)))) := by
  rw [List.map_cons]
  simp only [JsonLayout.enclose, String.toList_append, toList_intercalate_cons, List.flatMap_map,
    List.append_assoc]
  rfl

lemma toList_enclose_starts {opening closing : String} {c : Char}
    {more : List Char} (hopening : opening.toList = c :: more) (as : List α) :
    ∃ rest, (layout.enclose level opening closing (as.map text)).toList = c :: rest := by
  cases as with
  | nil => exact ⟨_, by rw [List.map_nil, toList_enclose_nil, hopening, List.cons_append]⟩
  | cons a as => exact ⟨_, by rw [toList_enclose_cons, hopening, List.cons_append]⟩

/-- The first part stands where the closing bracket of none would. -/
lemma closing_append_ne {closing r s : List Char} {c : Char} {a : α} (hc : c ≠ '\n')
    (hclosing : closing = [c]) (starts : ∀ x y, (text a).toList ++ x ≠ c :: y) :
    closing ++ r ≠ (layout.lineBreak (level + 1)).toList ++ ((text a).toList ++ s) := by
  intro h
  rw [hclosing] at h
  cases layout with
  | compact => exact starts _ _ h.symm
  | pretty => simp [JsonLayout.lineBreak, hc] at h

/-- **What stands between brackets can be taken apart** if the parts can, and none of them begins
with the closing bracket. -/
lemma enclose_inj {opening closing : String} {c : Char} {r s : List Char} {as bs : List α}
    (hclosing : closing.toList = [c]) (hcomma : c ≠ ',') (hline : c ≠ '\n')
    (parts : ∀ a ∈ as, SelfDelimiting text a)
    (starts : ∀ a x y, (text a).toList ++ x ≠ c :: y)
    (h : (layout.enclose level opening closing (as.map text)).toList ++ r =
      (layout.enclose level opening closing (bs.map text)).toList ++ s) : as = bs ∧ r = s := by
  cases as with
  | nil =>
    cases bs with
    | nil => exact ⟨rfl, List.append_cancel_left h⟩
    | cons b bs =>
      rw [List.map_nil, toList_enclose_nil, toList_enclose_cons] at h
      simp only [List.append_assoc, List.append_cancel_left_eq] at h
      exact absurd h (closing_append_ne hline hclosing (starts b))
  | cons a as =>
    cases bs with
    | nil =>
      rw [List.map_nil, toList_enclose_nil, toList_enclose_cons] at h
      simp only [List.append_assoc, List.append_cancel_left_eq] at h
      exact absurd h.symm (closing_append_ne hline hclosing (starts a))
    | cons b bs =>
      rw [toList_enclose_cons, toList_enclose_cons] at h
      simp only [List.append_assoc, List.append_cancel_left_eq] at h
      obtain ⟨rfl, htail⟩ := parts a List.mem_cons_self h
      have stop : ∀ x y, (layout.lineBreak level).toList ++ closing.toList ++ x ≠ ',' :: y := by
        intro x y
        rw [List.append_assoc]
        exact lineBreak_append_ne_comma hcomma hclosing
      rw [← List.append_assoc _ _ r, ← List.append_assoc _ _ s] at htail
      obtain ⟨rfl, rfl⟩ := commaParts_inj (fun a ha => parts a (List.mem_cons_of_mem _ ha)) stop
        htail
      exact ⟨rfl, rfl⟩

end Enclose

/-! ## Values -/

namespace Value

variable {layout : JsonLayout} {level : Nat}

/-- The first character of the text of a value. -/
def sign : Value → Char
  | null => 'n'
  | string _ => '"'
  | array _ => '['
  | object _ => '\x7b'

lemma toList_textAt (layout : JsonLayout) (level : Nat) (value : Value) :
    ∃ more, (value.textAt layout level).toList = value.sign :: more := by
  cases value with
  | null => exact ⟨['u', 'l', 'l'], by simp [textAt, sign]⟩
  | string text => exact ⟨_, toList_string text⟩
  | array parts =>
    rw [textAt_array]
    exact toList_enclose_starts rfl parts
  | object members =>
    rw [textAt_object]
    exact toList_enclose_starts rfl members

/-- No value begins as an array ends. -/
lemma textAt_append_ne (value : Value) (r s : List Char) :
    (value.textAt layout level).toList ++ r ≠ ']' :: s := by
  obtain ⟨more, hvalue⟩ := toList_textAt layout level value
  intro h
  rw [hvalue] at h
  cases value <;> simp [sign] at h

/-- No member begins as an object ends. -/
lemma memberAt_append_ne (member : String × Value) (r s : List Char) :
    (memberAt layout level member).toList ++ r ≠ '\x7d' :: s := by
  simp [memberAt, toList_string]

lemma sign_eq_of_append {value other : Value} {r s : List Char}
    (h : (value.textAt layout level).toList ++ r = (other.textAt layout level).toList ++ s) :
    value.sign = other.sign := by
  obtain ⟨more, hvalue⟩ := toList_textAt layout level value
  obtain ⟨more', hother⟩ := toList_textAt layout level other
  rw [hvalue, hother] at h
  exact (List.cons.inj h).1

/-! One lemma for each kind of value. -/

lemma null_selfDelimiting : SelfDelimiting (textAt layout level) null := by
  intro other r s h
  have hsign := sign_eq_of_append h
  cases other with
  | null => exact ⟨rfl, List.append_cancel_left h⟩
  | _ => simp [sign] at hsign

lemma string_text_selfDelimiting (text : String) :
    SelfDelimiting (textAt layout level) (string text) := by
  intro other r s h
  have hsign := sign_eq_of_append h
  cases other with
  | string text' =>
    obtain ⟨rfl, rfl⟩ := string_selfDelimiting text h
    exact ⟨rfl, rfl⟩
  | _ => simp [sign] at hsign

lemma array_selfDelimiting {parts : List Value}
    (each : ∀ part ∈ parts, SelfDelimiting (textAt layout (level + 1)) part) :
    SelfDelimiting (textAt layout level) (array parts) := by
  intro other r s h
  have hsign := sign_eq_of_append h
  cases other with
  | array parts' =>
    rw [textAt_array, textAt_array] at h
    obtain ⟨rfl, rfl⟩ := enclose_inj rfl (by decide) (by decide) each textAt_append_ne h
    exact ⟨rfl, rfl⟩
  | _ => simp [sign] at hsign

/-- A member ends where its value does. -/
lemma member_selfDelimiting {key : String} {value : Value}
    (hvalue : SelfDelimiting (textAt layout level) value) :
    SelfDelimiting (memberAt layout level) (key, value) := by
  rintro ⟨key', value'⟩ r s h
  simp only [memberAt, String.toList_append, List.append_assoc] at h
  obtain ⟨rfl, hmore⟩ := string_selfDelimiting key h
  obtain ⟨rfl, rfl⟩ := hvalue (List.append_cancel_left hmore)
  exact ⟨rfl, rfl⟩

lemma object_selfDelimiting {members : List (String × Value)}
    (each : ∀ member ∈ members, SelfDelimiting (memberAt layout (level + 1)) member) :
    SelfDelimiting (textAt layout level) (object members) := by
  intro other r s h
  have hsign := sign_eq_of_append h
  cases other with
  | object members' =>
    rw [textAt_object, textAt_object] at h
    obtain ⟨rfl, rfl⟩ := enclose_inj rfl (by decide) (by decide) each memberAt_append_ne h
    exact ⟨rfl, rfl⟩
  | _ => simp [sign] at hsign

mutual

/-- **The text of a value tells the value, and where it ends.** -/
lemma textAt_selfDelimiting (level : Nat) : (value : Value) →
    SelfDelimiting (textAt layout level) value
  | null => null_selfDelimiting
  | string text => string_text_selfDelimiting text
  | array parts => array_selfDelimiting (parts_selfDelimiting (level + 1) parts)
  | object members => object_selfDelimiting (members_selfDelimiting (level + 1) members)

lemma parts_selfDelimiting (level : Nat) : (parts : List Value) →
    ∀ part ∈ parts, SelfDelimiting (textAt layout level) part
  | [] => by simp
  | part :: more =>
    List.forall_mem_cons.2 ⟨textAt_selfDelimiting level part, parts_selfDelimiting level more⟩

lemma members_selfDelimiting (level : Nat) : (members : List (String × Value)) →
    ∀ member ∈ members, SelfDelimiting (memberAt layout level) member
  | [] => by simp
  | (_, value) :: more =>
    List.forall_mem_cons.2
      ⟨member_selfDelimiting (textAt_selfDelimiting level value), members_selfDelimiting level more⟩

end

end Value

end Json

/-! ## The value of a query -/

/-- The members that show a value. -/
def Atom.members : Atom → List (String × Json.Value)
  | term text similarity =>
    ("term", .string text) :: similarity.toList.map fun
      | .default => ("similarity", .null)
      | .value number => ("similarity", .string number)
  | phrase text distance =>
    ("phrase", .string text) :: distance.toList.map fun distance => ("distance", .string distance)
  | range low high inclusive =>
    [(if inclusive then "inclusive_range" else "exclusive_range",
      .object [("from", .string low), ("to", .string high)])]

/-- The members that show modifiers. -/
def Modifiers.members (m : Modifiers) : List (String × Json.Value) :=
  m.field.toList.map (fun field => ("field", .string field)) ++
  (m.marker.toList.map (fun marker => (marker.name, .string marker.sign)) ++
  (m.boost.toList.map (fun boost => ("boost", .string boost)) ++
  m.operator.toList.map fun operator => ("op", .string operator.keyword)))

mutual

/-- The JSON value of a query. -/
def Query.value : Query → Json.Value
  | .single c => c.value
  | .list cs => .array (Clause.values cs)

/-- The JSON value of a clause. -/
def Clause.value : Clause → Json.Value
  | .atom value m => .object (value.members ++ m.members)
  | .group body m => .object (("group", body.value) :: m.members)

/-- The JSON values of clauses. -/
def Clause.values : List Clause → List Json.Value
  | [] => []
  | c :: cs => c.value :: Clause.values cs

end

section Layout

variable {layout : JsonLayout}

open Json.Value in
lemma Atom.jsonMembers_eq (level : Nat) (value : Atom) :
    value.jsonMembers layout level = membersAt layout (level + 1) value.members := by
  rw [membersAt_eq]
  match value with
  | term text none => rfl
  | term text (some .default) => rfl
  | term text (some (.value number)) => rfl
  | phrase text none => rfl
  | phrase text (some distance) => rfl
  | range low high inclusive => rfl

open Json.Value in
lemma Modifiers.jsonMembers_eq (level : Nat) (m : Modifiers) :
    m.jsonMembers = membersAt layout level m.members := by
  rw [membersAt_eq]
  simp only [jsonMembers, members, List.map_append, List.map_map, List.append_assoc]
  rfl

mutual

/-- **The JSON text of a query is the text of its value.** -/
lemma Query.jsonAt_eq (level : Nat) : (q : Query) →
    q.jsonAt layout level = q.value.textAt layout level
  | .single c => by
    rw [Query.jsonAt, Query.value]
    exact Clause.jsonAt_eq level c
  | .list cs => by
    rw [Query.jsonAt, Query.value, Json.Value.textAt, Clause.jsonsAt_eq (level + 1) cs]

lemma Clause.jsonAt_eq (level : Nat) : (c : Clause) →
    c.jsonAt layout level = c.value.textAt layout level
  | .atom value m => by
    rw [Clause.jsonAt, Clause.value, Json.Value.textAt, value.jsonMembers_eq,
      m.jsonMembers_eq (level + 1), Json.Value.membersAt_eq, Json.Value.membersAt_eq,
      Json.Value.membersAt_eq, List.map_append]
  | .group body m => by
    rw [Clause.jsonAt, Clause.value, Json.Value.textAt, Json.Value.membersAt,
      m.jsonMembers_eq (level + 1), Query.jsonAt_eq (level + 1) body]

lemma Clause.jsonsAt_eq (level : Nat) : (cs : List Clause) →
    Clause.jsonsAt layout level cs = Json.Value.textsAt layout level (Clause.values cs)
  | [] => rfl
  | c :: cs => by
    rw [Clause.jsonsAt, Clause.values, Json.Value.textsAt, Clause.jsonAt_eq level c,
      Clause.jsonsAt_eq level cs]

end

end Layout

/-! ## From the value to the query -/

lemma Marker.name_ne {key : String} (h : key ≠ "required") (h' : key ≠ "prohibited")
    (marker : Marker) : marker.name ≠ key := by
  cases marker
  · exact h.symm
  · exact h'.symm

namespace Modifiers

/-- The keys that modifiers come under. -/
lemma key_of_mem_members {m : Modifiers} {member : String × Json.Value} (h : member ∈ m.members) :
    member.1 ∈ ["field", "required", "prohibited", "boost", "op"] := by
  simp only [members, List.mem_append, List.mem_map, Option.mem_toList] at h
  obtain ⟨field, -, rfl⟩ | ⟨marker, -, rfl⟩ | ⟨boost, -, rfl⟩ | ⟨operator, -, rfl⟩ := h
  · simp
  · cases marker <;> simp [Marker.name]
  · simp
  · simp

lemma members_inj {m n : Modifiers} (h : m.members = n.members) : m = n := by
  unfold members at h
  have marker : Function.Injective fun marker : Marker =>
      (marker.name, Json.Value.string marker.sign) := by
    intro a b hab
    exact Marker.name_injective (Prod.mk.inj hab).1
  have operator : Function.Injective fun operator : Operator =>
      ("op", Json.Value.string operator.keyword) := by
    intro a b hab
    exact Operator.keyword_injective (by simpa using hab)
  obtain ⟨hfield, h⟩ := optional_append_inj (fun a b hab => by simpa using hab)
    (by simp [Marker.name_ne]) (by simp [Marker.name_ne]) h
  obtain ⟨hmarker, h⟩ := optional_append_inj marker
    (by rintro (_ | _) <;> simp [Marker.name]) (by rintro (_ | _) <;> simp [Marker.name]) h
  obtain ⟨hboost, h⟩ := optional_append_inj (fun a b hab => by simpa using hab)
    (by simp) (by simp) h
  exact Modifiers.eq_of_parts hfield hmarker hboost (optional_inj operator h)

end Modifiers

/-- The members of a value end where those of the modifiers begin. -/
lemma Atom.members_append_inj {a b : Atom} {m n : Modifiers}
    (h : a.members ++ m.members = b.members ++ n.members) : a = b ∧ m = n := by
  have suffix : ∀ {m : Modifiers} {key : String} (value : Json.Value),
      key ∉ ["field", "required", "prohibited", "boost", "op"] → (key, value) ∉ m.members :=
    fun _ hkey mem => hkey (Modifiers.key_of_mem_members mem)
  cases a with
  | term text similarity =>
    cases b with
    | term text' similarity' =>
      obtain ⟨htext, h⟩ := List.cons.inj h
      obtain ⟨rfl, hm⟩ := optional_append_inj
        (by rintro (_ | _) (_ | _) <;> simp)
        (by rintro (_ | _) <;> exact suffix _ (by decide))
        (by rintro (_ | _) <;> exact suffix _ (by decide)) h
      exact ⟨by simpa using htext, Modifiers.members_inj hm⟩
    | phrase text' distance => simp [members] at h
    | range low high inclusive => cases inclusive <;> simp [members] at h
  | phrase text distance =>
    cases b with
    | term text' similarity => simp [members] at h
    | phrase text' distance' =>
      obtain ⟨htext, h⟩ := List.cons.inj h
      obtain ⟨rfl, hm⟩ := optional_append_inj (fun a b hab => by simpa using hab)
        (fun _ => suffix _ (by decide)) (fun _ => suffix _ (by decide)) h
      exact ⟨by simpa using htext, Modifiers.members_inj hm⟩
    | range low high inclusive => cases inclusive <;> simp [members] at h
  | range low high inclusive =>
    cases b with
    | term text similarity => cases inclusive <;> simp [members] at h
    | phrase text distance => cases inclusive <;> simp [members] at h
    | range low' high' inclusive' =>
      obtain ⟨hrange, hm⟩ := List.cons.inj h
      obtain ⟨hkey, hbounds⟩ := Prod.mk.inj hrange
      have hinclusive : inclusive = inclusive' := by
        cases inclusive <;> cases inclusive' <;> simp at hkey ⊢
      obtain ⟨rfl, rfl⟩ : low = low' ∧ high = high' := by simpa using hbounds
      exact ⟨by rw [hinclusive], Modifiers.members_inj hm⟩

/-- The key of a group is none of the keys of other values. -/
lemma Atom.members_ne_group (a : Atom) (m : Modifiers) (body : Json.Value)
    (more : List (String × Json.Value)) : a.members ++ m.members ≠ ("group", body) :: more := by
  cases a with
  | term text similarity => simp [members]
  | phrase text distance => simp [members]
  | range low high inclusive => cases inclusive <;> simp [members]

mutual

/-- **The value of a query tells the query.** -/
lemma Query.value_inj : {p q : Query} → p.value = q.value → p = q
  | .single c, .single d, h => congrArg Query.single (Clause.value_inj h)
  | .list cs, .list ds, h => congrArg Query.list (Clause.values_inj (Json.Value.array.inj h))
  | .single c, .list ds, h => by cases c <;> cases h
  | .list cs, .single d, h => by cases d <;> cases h

lemma Clause.value_inj : {c d : Clause} → c.value = d.value → c = d
  | .atom a m, .atom b n, h => by
    obtain ⟨rfl, rfl⟩ := Atom.members_append_inj (Json.Value.object.inj h)
    rfl
  | .group p m, .group q n, h => by
    obtain ⟨hbody, hm⟩ := List.cons.inj (Json.Value.object.inj h)
    rw [Query.value_inj (Prod.mk.inj hbody).2, Modifiers.members_inj hm]
  | .atom a m, .group q n, h => absurd (Json.Value.object.inj h) (a.members_ne_group m _ _)
  | .group p m, .atom b n, h => absurd (Json.Value.object.inj h).symm (b.members_ne_group n _ _)

lemma Clause.values_inj : {cs ds : List Clause} → Clause.values cs = Clause.values ds → cs = ds
  | [], [], _ => rfl
  | c :: cs, d :: ds, h => by
    obtain ⟨hc, hcs⟩ := List.cons.inj h
    rw [Clause.value_inj hc, Clause.values_inj hcs]

end

/-- **The JSON output loses nothing**: in either layout, queries of the same text are the same, be
their texts and lists what they may. -/
theorem json_eq_json_iff (layout : JsonLayout) (p q : Query) :
    p.json layout = q.json layout ↔ p = q := by
  constructor
  · intro h
    unfold Query.json at h
    rw [Query.jsonAt_eq, Query.jsonAt_eq] at h
    have hvalue := Json.Value.textAt_selfDelimiting 0 p.value
      (congrArg (fun text : String => text.toList ++ []) h)
    exact Query.value_inj hvalue.1
  · rintro rfl
    rfl

end SearchQuery
