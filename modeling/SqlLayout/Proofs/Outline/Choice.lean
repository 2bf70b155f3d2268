import SqlLayout.Proofs.Outline.Parts

/-!
# Choices in Labels

Operators and flags have finitely many values, and no two combinations of them that can meet in one label
are written alike. The cases are all decided.
-/

namespace SqlLayout

section Texts

theorem BinaryOp.text_inj {op other : BinaryOp} (h : op.text = other.text) : op = other := by
  revert h
  cases op <;> cases other <;> decide

theorem UnaryOp.text_inj {op other : UnaryOp} (h : op.text = other.text) : op = other := by
  revert h
  cases op <;> cases other <;> decide

theorem JoinKind.text_inj {kind other : JoinKind} (h : kind.text = other.text) : kind = other := by
  revert h
  cases kind <;> cases other <;> decide

theorem IndexKind.text_inj {kind other : IndexKind} (h : kind.text = other.text) : kind = other := by
  revert h
  cases kind <;> cases other <;> decide

end Texts

section Flags

theorem NullHandling.isWords_text : ∀ nulls : NullHandling, isWords nulls.text = true := by
  rintro (_ | _) <;> decide

theorem TempKeyword.isWords_text : ∀ keyword : TempKeyword, isWords keyword.text = true := by
  rintro (_ | _) <;> decide

/-- What a call of a function has after its name. -/
theorem isFlag_call (distinct : Bool) (nulls : Option NullHandling) :
    ∀ item ∈ [flag distinct "DISTINCT", nulls.map NullHandling.text], ∀ text ∈ item, IsFlag text := by
  rw [List.forall_mem_cons, List.forall_mem_singleton]
  exact ⟨isFlag_flag (by decide) distinct, isFlag_map NullHandling.isWords_text nulls⟩

theorem isFlag_createFunction (orReplace : Bool) (temporary : Option TempKeyword) :
    ∀ item ∈ [flag orReplace "OR REPLACE", temporary.map TempKeyword.text], ∀ text ∈ item, IsFlag text := by
  rw [List.forall_mem_cons, List.forall_mem_singleton]
  exact ⟨isFlag_flag (by decide) orReplace, isFlag_map TempKeyword.isWords_text temporary⟩

theorem isFlag_createTable (orReplace : Bool) (temporary : Option TempKeyword) (ifNotExists : Bool) :
    ∀ item ∈ [flag orReplace "OR REPLACE", temporary.map TempKeyword.text, flag ifNotExists "IF NOT EXISTS"],
      ∀ text ∈ item, IsFlag text := by
  rw [List.forall_mem_cons, List.forall_mem_cons, List.forall_mem_singleton]
  exact ⟨isFlag_flag (by decide) orReplace, isFlag_map TempKeyword.isWords_text temporary,
    isFlag_flag (by decide) ifNotExists⟩

theorem isFlag_createView (orReplace ifNotExists : Bool) :
    ∀ item ∈ [flag orReplace "OR REPLACE", flag ifNotExists "IF NOT EXISTS"], ∀ text ∈ item, IsFlag text := by
  rw [List.forall_mem_cons, List.forall_mem_singleton]
  exact ⟨isFlag_flag (by decide) orReplace, isFlag_flag (by decide) ifNotExists⟩

theorem eq_of_flag {label text : String} {isSet other : Bool}
    (h : flagged label [flag isSet text] = flagged label [flag other text]) : isSet = other := by
  have htail := flagTail_of_flagged h
  cases isSet <;> cases other <;> simp_all [flagTail, flag]

theorem eq_of_callFlags {distinct distinct' : Bool} {nulls nulls' : Option NullHandling}
    (h : flagTail [flag distinct "DISTINCT", nulls.map NullHandling.text] =
      flagTail [flag distinct' "DISTINCT", nulls'.map NullHandling.text]) :
    distinct = distinct' ∧ nulls = nulls' := by
  revert h
  cases distinct <;> cases distinct' <;> rcases nulls with _ | _ | _ <;>
    rcases nulls' with _ | _ | _ <;> decide

theorem eq_of_stringAggLabel {function function' : StringFunction} {distinct distinct' : Bool}
    {nulls nulls' : Option NullHandling}
    (h : flagged ("StringAgg " ++ function.text) [flag distinct "DISTINCT", nulls.map NullHandling.text] =
      flagged ("StringAgg " ++ function'.text)
        [flag distinct' "DISTINCT", nulls'.map NullHandling.text]) :
    function = function' ∧ distinct = distinct' ∧ nulls = nulls' := by
  revert h
  cases function <;> cases function' <;> cases distinct <;> cases distinct' <;>
    rcases nulls with _ | _ | _ <;> rcases nulls' with _ | _ | _ <;> decide

theorem eq_of_isFlags {negated negated' : Bool} {value value' : IsValue}
    (h : flagTail [flag negated "NOT", some value.text] = flagTail [flag negated' "NOT", some value'.text]) :
    negated = negated' ∧ value = value' := by
  revert h
  cases negated <;> cases negated' <;> cases value <;> cases value' <;> decide

theorem eq_of_sortFlags {direction direction' : Option Direction} {nulls nulls' : Option NullsOrder}
    (h : flagTail [direction.map Direction.text, nulls.map NullsOrder.text] =
      flagTail [direction'.map Direction.text, nulls'.map NullsOrder.text]) :
    direction = direction' ∧ nulls = nulls' := by
  revert h
  rcases direction with _ | _ | _ <;> rcases direction' with _ | _ | _ <;>
    rcases nulls with _ | _ | _ <;> rcases nulls' with _ | _ | _ <;> decide

theorem eq_of_setOperationLabel {op op' : SetOperator} {quantifier quantifier' : Option SetQuantifier}
    (h : flagged ("SetOperation " ++ op.text) [quantifier.map SetQuantifier.text] =
      flagged ("SetOperation " ++ op'.text) [quantifier'.map SetQuantifier.text]) :
    op = op' ∧ quantifier = quantifier' := by
  revert h
  cases op <;> cases op' <;> rcases quantifier with _ | _ | _ <;>
    rcases quantifier' with _ | _ | _ <;> decide

theorem eq_of_selectFlags {distinct distinct' : Bool} {shape shape' : Option SelectAs}
    (h : flagTail [flag distinct "DISTINCT", shape.map SelectAs.text] =
      flagTail [flag distinct' "DISTINCT", shape'.map SelectAs.text]) :
    distinct = distinct' ∧ shape = shape' := by
  revert h
  cases distinct <;> cases distinct' <;> rcases shape with _ | _ | _ <;>
    rcases shape' with _ | _ | _ <;> decide

theorem eq_of_createTableFlags {orReplace orReplace' ifNotExists ifNotExists' : Bool}
    {temporary temporary' : Option TempKeyword}
    (h : flagTail [flag orReplace "OR REPLACE", temporary.map TempKeyword.text,
        flag ifNotExists "IF NOT EXISTS"] =
      flagTail [flag orReplace' "OR REPLACE", temporary'.map TempKeyword.text,
        flag ifNotExists' "IF NOT EXISTS"]) :
    orReplace = orReplace' ∧ temporary = temporary' ∧ ifNotExists = ifNotExists' := by
  revert h
  cases orReplace <;> cases orReplace' <;> cases ifNotExists <;> cases ifNotExists' <;>
    rcases temporary with _ | _ | _ <;> rcases temporary' with _ | _ | _ <;> decide

/-- A function has the flags of a table that is created in any case. -/
theorem eq_of_createFunctionFlags {orReplace orReplace' : Bool} {temporary temporary' : Option TempKeyword}
    (h : flagTail [flag orReplace "OR REPLACE", temporary.map TempKeyword.text] =
      flagTail [flag orReplace' "OR REPLACE", temporary'.map TempKeyword.text]) :
    orReplace = orReplace' ∧ temporary = temporary' := by
  obtain ⟨hreplace, htemporary, -⟩ := @eq_of_createTableFlags orReplace orReplace' false false _ _ h
  exact ⟨hreplace, htemporary⟩

/-- A view has the flags of a table that is not temporary. -/
theorem eq_of_createViewFlags {orReplace orReplace' ifNotExists ifNotExists' : Bool}
    (h : flagTail [flag orReplace "OR REPLACE", flag ifNotExists "IF NOT EXISTS"] =
      flagTail [flag orReplace' "OR REPLACE", flag ifNotExists' "IF NOT EXISTS"]) :
    orReplace = orReplace' ∧ ifNotExists = ifNotExists' := by
  have htable : flagTail [flag orReplace "OR REPLACE", none, flag ifNotExists "IF NOT EXISTS"] =
      flagTail [flag orReplace' "OR REPLACE", none, flag ifNotExists' "IF NOT EXISTS"] := by
    simpa [flagTail, List.filterMap_cons] using h
  obtain ⟨hreplace, -, hexists⟩ := @eq_of_createTableFlags _ _ _ _ none none htable
  exact ⟨hreplace, hexists⟩

end Flags

end SqlLayout
