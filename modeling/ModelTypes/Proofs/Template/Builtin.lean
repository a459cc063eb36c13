import ModelTypes.Template.Builtin
import ModelTypes.Template.Compile
import ModelTypes.Template.Render
import ModelTypes.Proofs.Text.Parsed

/-!
# What the built-in templates give

The nodes of the built-in templates are what their texts compile to. Both print data that every
document has, so rendering with them succeeds on all documents. What they give is stated line by
line.
-/

namespace ModelTypes.Template

variable {scope : Scope} {outer : List Scope}

set_option maxRecDepth 4096 in
theorem ofText?_builtinSource (kind : DocumentKind) :
    ofText? (builtinSource kind) = some (builtin kind) := by
  rw [ofText?, builtinSource, String.toList_ofList]
  cases kind <;> with_unfolding_all rfl

/-! ## Rendering in steps -/

theorem mapM_zipIdx {l : List α} {g : α → β} {h : β × Nat → Except ε γ} {f : α → γ}
    (hl : ∀ a ∈ l, ∀ i, h (g a, i) = .ok (f a)) :
    ((l.map g).zipIdx n).mapM h = .ok (l.map f) := by
  -- the index of the first item is general
  induction l generalizing n with
  | nil => rfl
  | cons a l ih =>
    obtain ⟨hfirst, hothers⟩ := List.forall_mem_cons.1 hl
    rw [List.map_cons, List.zipIdx_cons, List.mapM_cons, hfirst, ih hothers]
    rfl

theorem render_cons (h : renderNode scope outer node = .ok u)
    (hs : render scope outer nodes = .ok v) : render scope outer (node :: nodes) = .ok (u ++ v) := by
  rw [render, h, hs]
  rfl

theorem render_last (h : renderNode scope outer node = .ok u) :
    render scope outer [node] = .ok u := by
  rw [render_cons h rfl, List.append_nil]

theorem render_text : renderNode scope outer (.text s) = .ok s := by
  rw [renderNode]

theorem render_print (h : operand.eval scope outer = .ok (some (.text s))) :
    renderNode scope outer (.print operand) = .ok s.toList := by
  rw [renderNode, h]
  rfl

theorem render_quote (h : operand.eval scope outer = .ok (some (.text s))) :
    renderNode scope outer (.quote operand) = .ok (Json.encode s.toList) := by
  rw [renderNode, h]
  rfl

theorem render_choice (h : condition.eval scope outer = .ok (some d)) :
    renderNode scope outer (.choice condition whenTrue whenFalse) =
      if d.isTruthy then render scope outer whenTrue else render scope outer whenFalse := by
  rw [renderNode, h]
  rfl

theorem render_each {l : List α} {data : α → Data} {f : α → List Char}
    (h : operand.eval scope outer = .ok (some (.list (l.map data))))
    (hbody : ∀ a ∈ l, ∀ i, render ⟨data a, some i⟩ (scope :: outer) body = .ok (f a)) :
    renderNode scope outer (.each operand body none) = .ok (l.flatMap f) := by
  rw [renderNode, h]
  cases l with
  | nil => rfl
  | cons a l =>
    -- the branch for an empty list is not there, so an empty list gives no text
    let entries (l : List α) : List (Option String × Data) := (l.map data).map (none, ·)
    have hparts : (entries (a :: l)).zipIdx.mapM (fun entry =>
        render ⟨entry.1.2, some ⟨entry.2, entry.2 == (entries l).length, entry.1.1⟩⟩
          (scope :: outer) body) = .ok ((a :: l).map f) := by
      rw [show entries (a :: l) = (a :: l).map fun b => (none, data b) from List.map_map]
      exact mapM_zipIdx fun b hb i => hbody b hb _
    have hflat := congrArg (Except.map List.flatten) hparts
    rwa [except_map_ok, ← List.flatMap_def] at hflat

theorem eval_key {key : String} {fields : List (String × Data)} (h : fields.lookup key = some d) :
    (Operand.path 0 [key]).eval ⟨.record fields, i⟩ outer = .ok (some d) := by
  simp [Operand.eval, Data.at?, h]

/-! ## Lines -/

def aliasLine (a : Alias) : List Char :=
  "declare type ".toList ++ (a.name.toList ++ (" = ".toList ++ (a.kind.keyword.toList ++
    ";\n".toList)))

/-- The line of a property; a marked one can be left out. -/
def propertyLine (marked : Bool) (b : Binding) : List Char :=
  "  ".toList ++ (Json.encode b.key.toList ++ ((if marked then ['?'] else []) ++ (": ".toList ++
    (b.value.text.toList ++ ",\n".toList))))

def valueLine (value : String) : List Char :=
  "  | ".toList ++ (Json.encode value.toList ++ "\n".toList)

def modelText (d : ModelDocument) : List Char :=
  "// @flow\n\n".toList ++ (d.aliases.flatMap aliasLine ++ ("\ndeclare type ".toList ++
    (d.typePrefix.toList ++ (d.name.toList ++ (" = \x7b|\n".toList ++
      (d.fields.flatMap (fun b => propertyLine (b.optional || b.hasDefault) b) ++
        (d.associations.flatMap (fun b => propertyLine b.optional b) ++ "|\x7d;\n".toList)))))))

def enumText (d : EnumDocument) : List Char :=
  "// @flow\n\ndeclare type ".toList ++ (d.typePrefix.toList ++ (d.name.toList ++
    (" =\n".toList ++ (d.values.flatMap valueLine ++
      ((if d.values.isEmpty then "  empty\n".toList else []) ++ ";\n".toList)))))

theorem render_alias : render ⟨aliasData a, i⟩ outer
    [.text "declare type ".toList, .print (.path 0 ["key"]), .text " = ".toList,
      .print (.path 0 ["value"]), .text ";\n".toList] = .ok (aliasLine a) :=
  render_cons render_text <| render_cons (render_print (eval_key rfl)) <| render_cons render_text <|
    render_cons (render_print (eval_key rfl)) <| render_last render_text

theorem render_property (hmark : renderNode ⟨bindingData b, i⟩ outer mark =
    .ok (if marked then ['?'] else [])) : render ⟨bindingData b, i⟩ outer
      [.text "  ".toList, .quote (.path 0 ["key"]), mark, .text ": ".toList,
        .print (.path 0 ["value"]), .text ",\n".toList] = .ok (propertyLine marked b) :=
  render_cons render_text <| render_cons (render_quote (eval_key rfl)) <| render_cons hmark <|
    render_cons render_text <| render_cons (render_print (eval_key rfl)) <| render_last render_text

theorem render_mark {key : String}
    (h : (Operand.path 0 [key]).eval scope outer = .ok (some (.flag b))) :
    renderNode scope outer (.choice (.path 0 [key]) [.text ['?']] []) =
      .ok (if b then ['?'] else []) := by
  rw [render_choice h, Data.isTruthy, render_last render_text]
  cases b <;> rfl

theorem render_marks {key key' : String}
    (h : (Operand.path 0 [key]).eval scope outer = .ok (some (.flag b)))
    (h' : (Operand.path 0 [key']).eval scope outer = .ok (some (.flag b'))) :
    renderNode scope outer (.choice (.path 0 [key]) [.text ['?']]
      [.choice (.path 0 [key']) [.text ['?']] []]) = .ok (if b || b' then ['?'] else []) := by
  rw [render_choice h, Data.isTruthy, render_last render_text, render_last (render_mark h')]
  cases b <;> rfl

theorem render_value : render ⟨.text value, i⟩ outer
    [.text "  | ".toList, .quote (.path 0 []), .text "\n".toList] = .ok (valueLine value) :=
  render_cons render_text <| render_cons (render_quote (by simp [Operand.eval, Data.at?])) <|
    render_last render_text

theorem render_model : model.renderDocument (.model d) = .ok (modelText d) := by
  -- one loop each for the aliases, the fields and the associations
  have haliases : renderNode ⟨documentData (.model d), none⟩ [] (.each (.path 0 ["types"])
      [.text "declare type ".toList, .print (.path 0 ["key"]), .text " = ".toList,
        .print (.path 0 ["value"]), .text ";\n".toList] none) = .ok (d.aliases.flatMap aliasLine) :=
    render_each (eval_key rfl) fun a _ _ => render_alias
  have hfields : renderNode ⟨documentData (.model d), none⟩ [] (.each (.path 0 ["fields"])
      [.text "  ".toList, .quote (.path 0 ["key"]),
        .choice (.path 0 ["optional"]) [.text ['?']]
          [.choice (.path 0 ["default"]) [.text ['?']] []],
        .text ": ".toList, .print (.path 0 ["value"]), .text ",\n".toList] none) =
      .ok (d.fields.flatMap fun b => propertyLine (b.optional || b.hasDefault) b) :=
    render_each (eval_key rfl) fun b _ _ => render_property <|
      render_marks (eval_key rfl) (eval_key rfl)
  have hassociations : renderNode ⟨documentData (.model d), none⟩ []
      (.each (.path 0 ["associations"])
        [.text "  ".toList, .quote (.path 0 ["key"]), .choice (.path 0 ["optional"]) [.text ['?']] [],
          .text ": ".toList, .print (.path 0 ["value"]), .text ",\n".toList] none) =
      .ok (d.associations.flatMap fun b => propertyLine b.optional b) :=
    render_each (eval_key rfl) fun b _ _ => render_property (render_mark (eval_key rfl))
  exact render_cons render_text <| render_cons haliases <| render_cons render_text <|
    render_cons (render_print (eval_key rfl)) <| render_cons (render_print (eval_key rfl)) <|
    render_cons render_text <| render_cons hfields <| render_cons hassociations <|
    render_last render_text

theorem render_enum : enum.renderDocument (.enum d) = .ok (enumText d) := by
  have hkey : (Operand.path 0 ["values"]).eval ⟨documentData (.enum d), none⟩ [] =
      .ok (some (.list (d.values.map .text))) := eval_key rfl
  have hvalues : renderNode ⟨documentData (.enum d), none⟩ [] (.each (.path 0 ["values"])
      [.text "  | ".toList, .quote (.path 0 []), .text "\n".toList] none) =
      .ok (d.values.flatMap valueLine) :=
    render_each hkey fun value _ _ => render_value
  -- the branch for an empty list stands after the loop
  have hempty : renderNode ⟨documentData (.enum d), none⟩ []
      (.choice (.path 0 ["values"]) [] [.text "  empty\n".toList]) =
      .ok (if d.values.isEmpty then "  empty\n".toList else []) := by
    rw [render_choice hkey, Data.isTruthy, render_last render_text]
    cases d.values <;> rfl
  exact render_cons render_text <| render_cons (render_print (eval_key rfl)) <|
    render_cons (render_print (eval_key rfl)) <| render_cons render_text <|
    render_cons hvalues <| render_cons hempty <| render_last render_text

end ModelTypes.Template
