import TabPilot.Proofs.Path.References
import TabPilot.Proofs.Scope.Templates

set_option autoImplicit false

/-! # What a template is filled in with

The author of a template has texts and paths in mind. `Template.written` is the template made of
them: each brace of a text doubled, each path between single braces. The main statement,
`Store.fill_written`, says that the template is filled in with just these texts and the values at
these paths, wherever braces come to stand side by side.
-/

namespace TabPilot.Template

/-- A part of a template as its author means it: a text that stands for itself, or a path, whose
text has no braces. -/
inductive Part
  | literal (text : String)
  | place (path : String) (plain : ∀ c ∈ path.toList, c ≠ '\x7b' ∧ c ≠ '\x7d')

def doubled (c : Char) : List Char := if c = '\x7b' ∨ c = '\x7d' then [c, c] else [c]

def Part.chars : Part → List Char
  | .literal text => text.toList.flatMap doubled
  | .place path _ => '\x7b' :: (path.toList ++ ['\x7d'])

def written (parts : List Part) : String := String.ofList (parts.flatMap Part.chars)

/-- The value that the text of a path leads to; blanks around the path do not count. -/
def valueAt? (read : Path → Option Value) (path : String) : Option Value :=
  read (Path.parse (Text.trim path))

/-- How the text of a path is called when it leads nowhere. -/
def shownName (path : String) : String :=
  String.ofList ((Text.trim path).toList.dropWhile (· = '$'))

def Part.path? : Part → Option String
  | .literal _ => none
  | .place path _ => some path

/-- The first path among some parts that leads nowhere. -/
def firstUndefined? (read : Path → Option Value) (parts : List Part) : Option String :=
  (parts.filterMap Part.path?).find? fun path => (valueAt? read path).isNone

def Part.text? (read : Path → Option Value) : Part → Option String
  | .literal text => some text
  | .place path _ => (valueAt? read path).map Value.render

variable {read : Path → Option Value} {parts : List Part}

/-! ## Filling in -/

theorem map_map_append {ε : Type} (x : Except ε (List Char)) (xs ys : List Char) :
    (x.map (ys ++ ·)).map (xs ++ ·) = x.map (xs ++ ys ++ ·) := by
  cases x with
  | error e => rfl
  | ok cs => exact congrArg Except.ok (List.append_assoc xs ys cs).symm

/-- A text whose braces are doubled is filled in as itself, whatever follows. -/
theorem fillText_doubled (cs rest : List Char) :
    fillText read (cs.flatMap doubled ++ rest) = (fillText read rest).map (cs ++ ·) := by
  induction cs with
  | nil =>
      rw [List.flatMap_nil, List.nil_append]
      cases fillText read rest <;> rfl
  | cons c cs ih =>
      have hc : fillText read (doubled c ++ (cs.flatMap doubled ++ rest)) =
          (fillText read (cs.flatMap doubled ++ rest)).map ([c] ++ ·) := by
        rw [doubled]
        split
        · next hbrace => rcases hbrace with rfl | rfl <;> rfl
        · next hbrace =>
            rw [not_or] at hbrace
            exact fillText_cons hbrace.1 fun hdouble => hbrace.2 hdouble.1
      rw [List.flatMap_cons, List.append_assoc, hc, ih, map_map_append, List.singleton_append]

theorem fillText_literal (text : String) (rest : List Char) :
    fillText read ((Part.literal text).chars ++ rest) =
      (fillText read rest).map (text.toList ++ ·) := fillText_doubled text.toList rest

/-- A path between braces is filled in with what it leads to, whatever follows. -/
theorem fillText_path {path : String} (plain : ∀ c ∈ path.toList, c ≠ '\x7b' ∧ c ≠ '\x7d')
    (rest : List Char) :
    fillText read ((Part.place path plain).chars ++ rest) =
      match valueAt? read path with
      | some v => (fillText read rest).map (v.render.toList ++ ·)
      | none => .error (.undefined (shownName path)) := by
  have hopen : path.toList.head? ≠ some '\x7b' := fun h =>
    (plain _ (List.mem_of_mem_head? h)).1 rfl
  have hclose : '\x7d' ∉ path.toList := fun h => (plain _ h).2 rfl
  have hplace : place read path.toList =
      match valueAt? read path with
      | some v => .ok v.render.toList
      | none => .error (.undefined (shownName path)) := by
    rewrite [place, valueAt?, shownName, Path.parse, Text.trim, String.toList_ofList]
    rfl
  rw [Part.chars, List.cons_append, List.append_assoc, List.singleton_append,
    fillText_place read hopen hclose, hplace]
  cases valueAt? read path <;> rfl

theorem firstUndefined?_literal (text : String) :
    firstUndefined? read (.literal text :: parts) = firstUndefined? read parts := rfl

theorem firstUndefined?_place (path : String)
    (plain : ∀ c ∈ path.toList, c ≠ '\x7b' ∧ c ≠ '\x7d') :
    firstUndefined? read (.place path plain :: parts) =
      match valueAt? read path with
      | some _ => firstUndefined? read parts
      | none => some path := by
  have hpaths : (Part.place path plain :: parts).filterMap Part.path? =
      path :: parts.filterMap Part.path? := rfl
  rw [firstUndefined?, hpaths, List.find?_cons]
  cases valueAt? read path <;> rfl

theorem fillText_parts (parts : List Part) :
    fillText read (parts.flatMap Part.chars) =
      match firstUndefined? read parts with
      | none => .ok ((parts.filterMap (Part.text? read)).flatMap String.toList)
      | some path => .error (.undefined (shownName path)) := by
  induction parts with
  | nil => rfl
  | cons part parts ih =>
      cases part with
      | literal text =>
          have htexts : (Part.literal text :: parts).filterMap (Part.text? read) =
              text :: parts.filterMap (Part.text? read) := rfl
          rw [List.flatMap_cons, fillText_literal, ih, firstUndefined?_literal, htexts,
            List.flatMap_cons]
          cases firstUndefined? read parts <;> rfl
      | place path plain =>
          rw [List.flatMap_cons, fillText_path, ih, firstUndefined?_place]
          cases hvalue : valueAt? read path with
          | none => rfl
          | some v =>
              have htext : Part.text? read (.place path plain) = some v.render := by
                rw [Part.text?, hvalue, Option.map_some]
              rw [List.filterMap_cons_some htext, List.flatMap_cons]
              cases firstUndefined? read parts <;> rfl

theorem ofList_flatMap (texts : List String) :
    String.ofList (texts.flatMap String.toList) = String.join texts := by
  induction texts with
  | nil => rfl
  | cons text texts ih =>
      rw [List.flatMap_cons, String.ofList_append, String.ofList_toList, ih, String.join_cons]

end TabPilot.Template

namespace TabPilot.Store

open Template

/-- **Filling in a template.** The template that is written for some texts and paths is filled in
with the texts and the values at the paths, in order. If a path leads nowhere, it fails and names
the first that does. -/
theorem fill_written (st : Store) (s : ScopeId) (parts : List Part) :
    fill (st.get s) (written parts) =
      match firstUndefined? (st.get s) parts with
      | none => .ok (String.join (parts.filterMap (Part.text? (st.get s))))
      | some path => .error (.undefined (shownName path)) := by
  rw [fill, written, String.toList_ofList, fillText_parts]
  cases firstUndefined? (st.get s) parts with
  | some path => rfl
  | none => exact congrArg Except.ok (ofList_flatMap _)

/-- Three braces in a row: the first two are the brace of a text, the third opens a placeholder. -/
example : written [.literal "\x7b", .place "a" (by simp), .literal "\x7d"] =
    "\x7b\x7b\x7ba\x7d\x7d\x7d" := by cbv

end TabPilot.Store
