import SqlLayout.Outline.Statement
import SqlLayout.Proofs.Outline.Words

/-!
# Labels of Several Parts

The flags of a label are known from what comes after the rest of it, and the name in a label ends where
the flags start.
-/

namespace SqlLayout

open Token Spelling

section Texts

/-- A text that some phrase spells within a line. -/
def IsPhraseText (text : String) : Prop :=
  ∃ spelling : Spelling, spelling.Writes text

/-- Words with single blanks between them. -/
def isWords (text : String) : Bool :=
  (text.toList.splitOn ' ').all fun part => isKeyword (String.ofList part)

variable {text label : String} {flags : List (Option String)}

theorem plain_words (texts : List String) :
    (words texts).plain = List.intercalate [' '] (texts.map String.toList) := by
  induction texts with
  | nil => rfl
  | cons text texts ih =>
    cases texts with
    | nil => simp [words]
    | cons next texts =>
      have hwords : words (text :: next :: texts) = Atom.word text :: .gap :: words (next :: texts) := rfl
      rw [hwords, plain_cons_word, plain_cons_gap, ih]
      simp

theorem inline_words (texts : List String) : (words texts).all Atom.isInline = true := by
  induction texts with
  | nil => rfl
  | cons text texts ih =>
    cases texts with
    | nil => rfl
    | cons next texts => exact ih

theorem exists_words (h : isWords text = true) : ∃ texts ≠ [], (words texts).Writes text := by
  let parts := text.toList.splitOn ' '
  have hne : parts.map String.ofList ≠ [] := by simp [parts]
  have hkeywords : ∀ part ∈ parts.map String.ofList, isKeyword part := by
    simpa [isWords, parts] using h
  have htext : text.toList = (words (parts.map String.ofList)).plain := by
    have hsplit : List.intercalate [' '] parts = text.toList := List.intercalate_splitOn ' '
    rw [plain_words, List.map_map, ← hsplit]
    congr 1
    simp
  exact ⟨_, hne, isPhrase_words hne hkeywords, inline_words _, htext⟩

theorem isPhraseText_words (h : isWords text = true) : IsPhraseText text := by
  obtain ⟨texts, -, hwrites⟩ := exists_words h
  exact ⟨_, hwrites⟩

theorem IsPhraseText.isLabelText (h : IsPhraseText text) : IsLabelText text := by
  obtain ⟨spelling, hwrites⟩ := h
  exact hwrites.isLabelText

theorem IsPhraseText.withFlags (h : IsPhraseText label)
    (hflags : ∀ flag ∈ flags, ∀ text ∈ flag, IsPhraseText text) : IsPhraseText (flagged label flags) := by
  induction flags generalizing label with
  | nil => rwa [flagged_nil]
  | cons flag flags ih =>
    rw [List.forall_mem_cons] at hflags
    cases flag with
    | none =>
      rw [flagged_none]
      exact ih h hflags.2
    | some text =>
      obtain ⟨spelling, hlabel⟩ := h
      obtain ⟨other, htext⟩ := hflags.1 text rfl
      rw [flagged_some]
      exact ih ⟨_, hlabel.gap htext⟩ hflags.2

theorem IsPhraseText.after (word : String) {head : String} (hhead : head = word ++ " ")
    (hword : isKeyword word = true) (h : IsPhraseText text) : IsPhraseText (head ++ text) := by
  obtain ⟨spelling, hwrites⟩ := h
  exact ⟨_, hwrites.after word hhead hword⟩

theorem isPhraseText_name {name : Identifier} (h : name.IsSegment) : IsPhraseText name.raw :=
  ⟨_, Identifier.writes h⟩

end Texts

section Flags

/-- What the flags that are set add to a label. -/
def flagTail (flags : List (Option String)) : String :=
  String.join ((flags.filterMap id).map fun text => " " ++ text)

theorem flagged_eq_append (label : String) (flags : List (Option String)) :
    flagged label flags = label ++ flagTail flags := by
  induction flags generalizing label with
  | nil => simp [flagTail]
  | cons flag flags ih =>
    cases flag with
    | none => simpa [flagTail] using ih label
    | some text => simpa [flagTail, String.append_assoc] using ih (label ++ " " ++ text)

theorem flagTail_of_flagged {label : String} {flags others : List (Option String)}
    (h : flagged label flags = flagged label others) : flagTail flags = flagTail others := by
  rw [flagged_eq_append, flagged_eq_append] at h
  simpa using h

/-- A flag that no name before it goes on with. -/
def IsFlag (text : String) : Prop :=
  ∃ spelling : Spelling, spelling.Writes text ∧ ∀ piece ∈ spelling.pieces.head?, piece.1 ≠ .dot

theorem isFlag_words {text : String} (h : isWords text = true) : IsFlag text := by
  obtain ⟨texts, hne, hwrites⟩ := exists_words h
  obtain ⟨first, rest, rfl⟩ := List.exists_cons_of_ne_nil hne
  refine ⟨_, hwrites, ?_⟩
  intro piece hpiece
  have hfirst : (words (first :: rest)).pieces.head? = some (.word, first) := by cases rest <;> rfl
  rw [hfirst] at hpiece
  cases hpiece
  exact Kind.noConfusion

theorem isFlag_flag {text : String} (h : isWords text = true) (isSet : Bool) :
    ∀ other ∈ flag isSet text, IsFlag other := by
  cases isSet with
  | false => simp [flag]
  | true => simpa [flag] using isFlag_words h

theorem isFlag_map {α : Type} {write : α → String} (h : ∀ a, isWords (write a) = true) (o : Option α) :
    ∀ text ∈ o.map write, IsFlag text := by
  cases o with
  | none => simp
  | some a => simpa using isFlag_words (h a)

theorem isFlag_after (word : String) {head text : String} (hhead : head = word ++ " ")
    (hword : isKeyword word = true) (h : IsPhraseText text) : IsFlag (head ++ text) := by
  obtain ⟨spelling, hwrites⟩ := h
  refine ⟨_, hwrites.after word hhead hword, ?_⟩
  rintro piece ⟨⟩
  exact Kind.noConfusion

theorem isFlag_alias {aliasName : Option Identifier} (h : ∀ name ∈ aliasName, name.IsSound) :
    ∀ text ∈ aliasName.map fun name => "AS " ++ name.raw, IsFlag text := by
  cases aliasName with
  | none => simp
  | some name =>
    rintro text ⟨⟩
    exact isFlag_after "AS" (by decide) (by decide) (isPhraseText_name (h name rfl).isSegment)

/-- What flags add to the tokens of a label does not start with a point. -/
theorem exists_flagged {label : String} {spelling : Spelling} {flags : List (Option String)}
    (h : spelling.Writes label) (hflags : ∀ flag ∈ flags, ∀ text ∈ flag, IsFlag text) :
    ∃ whole : Spelling, whole.Writes (flagged label flags) ∧
      ∃ rest, whole.pieces = spelling.pieces ++ rest ∧ ∀ piece ∈ rest.head?, piece.1 ≠ .dot := by
  induction flags generalizing label spelling with
  | nil => exact ⟨spelling, by rwa [flagged_nil], [], by simp, by simp⟩
  | cons flag flags ih =>
    rw [List.forall_mem_cons] at hflags
    cases flag with
    | none =>
      rw [flagged_none]
      exact ih h hflags.2
    | some text =>
      obtain ⟨other, htext, hhead⟩ := hflags.1 text rfl
      obtain ⟨whole, hwhole, rest, hpieces, hrest⟩ := ih (h.gap htext) hflags.2
      refine ⟨whole, by rwa [flagged_some], other.pieces ++ rest, by simp [hpieces], ?_⟩
      intro piece hpiece
      rw [List.head?_append] at hpiece
      cases hother : other.pieces.head? with
      | none => exact hrest piece (by simpa [hother] using hpiece)
      | some first => exact hhead piece (by simpa [hother] using hpiece)

/-- The name and the flags of a label are known from it. -/
theorem eq_of_flagged (word : String) {head : String} {name other : QualifiedName}
    {flags others : List (Option String)} (hhead : head = word ++ " ") (hword : isKeyword word = true)
    (hname : ∀ segment ∈ name.segments, segment.IsSegment)
    (hother : ∀ segment ∈ other.segments, segment.IsSegment)
    (hflags : ∀ flag ∈ flags, ∀ text ∈ flag, IsFlag text)
    (hothers : ∀ flag ∈ others, ∀ text ∈ flag, IsFlag text)
    (h : flagged (head ++ name.dotted) flags = flagged (head ++ other.dotted) others) :
    name = other ∧ flagTail flags = flagTail others := by
  have hwrites := (QualifiedName.writes hname).after word hhead hword
  have hwrites' := (QualifiedName.writes hother).after word hhead hword
  obtain ⟨whole, hwhole, rest, hpieces, hrest⟩ := exists_flagged hwrites hflags
  obtain ⟨whole', hwhole', rest', hpieces', hrest'⟩ := exists_flagged hwrites' hothers
  have hsame := hwhole.pieces_eq (h ▸ hwhole')
  rw [hpieces, hpieces'] at hsame
  obtain ⟨rfl, -⟩ := QualifiedName.eq_of_pieces hrest hrest' (List.cons.inj hsame).2
  exact ⟨rfl, flagTail_of_flagged h⟩

end Flags

section Optional

variable {label : String}

/-- A part that may be missing is known from the label it is added to. -/
theorem eq_of_optional {α : Type} {write : α → String} {o other : Option α}
    (hwrite : ∀ a ∈ o, ∀ b ∈ other, write a = write b → a = b)
    (h : flagged label [o.map write] = flagged label [other.map write]) : o = other := by
  have htail := flagTail_of_flagged h
  cases o with
  | none =>
    cases other with
    | none => rfl
    | some b => simp [flagTail] at htail
  | some a =>
    cases other with
    | none => simp [flagTail] at htail
    | some b =>
      have htext : write a = write b := by simpa [flagTail] using htail
      rw [hwrite a rfl b rfl htext]

theorem Identifier.raw_inj {name other : Identifier} (h : name.raw = other.raw) : name = other := by
  cases name
  cases other
  cases h
  rfl

theorem eq_of_withAlias {aliasName other : Option Identifier}
    (h : withAlias label aliasName = withAlias label other) : aliasName = other := by
  refine eq_of_optional (fun name _ next _ htext => ?_) h
  exact Identifier.raw_inj (by simpa using htext)

/-- The tokens of an alias. -/
def aliasPieces (aliasName : Option Identifier) : List (Kind × String) :=
  aliasName.toList.flatMap fun name => [(.word, "AS"), name.piece]

theorem eq_of_aliasPieces {aliasName other : Option Identifier} {rest rest' : List (Kind × String)}
    (hrest : (.word, "AS") ∉ rest.head?) (hrest' : (.word, "AS") ∉ rest'.head?)
    (h : aliasPieces aliasName ++ rest = aliasPieces other ++ rest') : aliasName = other ∧ rest = rest' := by
  cases aliasName with
  | none =>
    cases other with
    | none => exact ⟨rfl, h⟩
    | some next =>
      have has : rest = (.word, "AS") :: next.piece :: rest' := h
      exact absurd (by rw [has]; rfl) hrest
  | some name =>
    cases other with
    | none =>
      have has : (.word, "AS") :: name.piece :: rest = rest' := h
      exact absurd (by rw [← has]; rfl) hrest'
    | some next =>
      have has : (.word, "AS") :: name.piece :: rest = (.word, "AS") :: next.piece :: rest' := h
      obtain ⟨hpiece, hrests⟩ := List.cons.inj (List.cons.inj has).2
      exact ⟨by rw [Identifier.piece_inj hpiece], hrests⟩

theorem exists_aliased {spelling : Spelling} (h : spelling.Writes label) {aliasName : Option Identifier}
    (hname : ∀ name ∈ aliasName, name.IsSound) :
    ∃ whole : Spelling, whole.Writes (withAlias label aliasName) ∧
      whole.pieces = spelling.pieces ++ aliasPieces aliasName := by
  cases aliasName with
  | none => exact ⟨spelling, by simpa [withAlias] using h, by simp [aliasPieces]⟩
  | some name =>
    have has : Writes _ ("AS " ++ name.raw) :=
      (Identifier.writes (hname name rfl).isSegment).after "AS" (by decide) (by decide)
    refine ⟨_, by simpa [withAlias] using h.gap has, ?_⟩
    simp [aliasPieces, Identifier.pieces_spelling, Atom.word]

/-- The tokens of an offset and its alias. -/
def offsetPieces (offset : Option (Option Identifier)) : List (Kind × String) :=
  offset.toList.flatMap fun inner => (.word, "WITH") :: (.word, "OFFSET") :: aliasPieces inner

theorem exists_unnestLabel {aliasName : Option Identifier} {offset : Option (Option Identifier)}
    (hname : ∀ name ∈ aliasName, name.IsSound) (hoffset : ∀ inner ∈ offset, ∀ name ∈ inner, name.IsSound) :
    ∃ whole : Spelling, whole.Writes (unnestLabel aliasName offset) ∧
      whole.pieces = (.word, "Unnest") :: (aliasPieces aliasName ++ offsetPieces offset) := by
  have hword : Writes [Atom.word "Unnest"] "Unnest" := .keyword (by decide)
  obtain ⟨whole, hwhole, hpieces⟩ := exists_aliased hword hname
  cases offset with
  | none => exact ⟨whole, hwhole, by simp [hpieces, offsetPieces, Atom.word]⟩
  | some inner =>
    have hwith : Writes [Atom.word "WITH"] "WITH" := .keyword (by decide)
    have hoffsetWord : Writes [Atom.word "OFFSET"] "OFFSET" := .keyword (by decide)
    have htext : withAlias "Unnest" aliasName ++ " " ++ "WITH" ++ " " ++ "OFFSET" =
        withAlias "Unnest" aliasName ++ " WITH OFFSET" := by
      rw [String.append_assoc, String.append_assoc, String.append_assoc]
      rfl
    have hwords := (hwhole.gap hwith).gap hoffsetWord
    rw [htext] at hwords
    obtain ⟨longer, hlonger, hlongerPieces⟩ := exists_aliased hwords (hoffset inner rfl)
    exact ⟨longer, hlonger, by simp [hlongerPieces, hpieces, offsetPieces, Atom.word]⟩

/-- The two aliases of an array are told apart by what stands before each. -/
theorem eq_of_unnestLabel {aliasName other : Option Identifier}
    {offset otherOffset : Option (Option Identifier)}
    (hname : ∀ name ∈ aliasName, name.IsSound) (hother : ∀ name ∈ other, name.IsSound)
    (hoffset : ∀ inner ∈ offset, ∀ name ∈ inner, name.IsSound)
    (hotherOffset : ∀ inner ∈ otherOffset, ∀ name ∈ inner, name.IsSound)
    (h : unnestLabel aliasName offset = unnestLabel other otherOffset) :
    aliasName = other ∧ offset = otherOffset := by
  obtain ⟨whole, hwhole, hpieces⟩ := exists_unnestLabel hname hoffset
  obtain ⟨whole', hwhole', hpieces'⟩ := exists_unnestLabel hother hotherOffset
  have hsame := hwhole.pieces_eq (h ▸ hwhole')
  rw [hpieces, hpieces'] at hsame
  have hparts := (List.cons.inj hsame).2
  have hnotAs (offset : Option (Option Identifier)) : (.word, "AS") ∉ (offsetPieces offset).head? := by
    cases offset <;> simp [offsetPieces]
  obtain ⟨rfl, hoffsets⟩ := eq_of_aliasPieces (hnotAs offset) (hnotAs otherOffset) (List.cons.inj hsame).2
  refine ⟨rfl, ?_⟩
  cases offset with
  | none =>
    cases otherOffset with
    | none => rfl
    | some inner => cases hoffsets
  | some inner =>
    cases otherOffset with
    | none => cases hoffsets
    | some inner' =>
      have haliases : aliasPieces inner ++ [] = aliasPieces inner' ++ [] := by
        simpa [offsetPieces] using hoffsets
      rw [(eq_of_aliasPieces (by simp) (by simp) haliases).1]

/-- The tokens of the columns that a star leaves out. -/
def exceptPieces (except : List Identifier) : List (Kind × String) :=
  if except.isEmpty then []
  else (.word, "EXCEPT") :: pieces (commas (except.map Identifier.spelling))

theorem exists_wildcardLabel {qualifier : Option QualifiedName} {except : List Identifier}
    (hqualifier : ∀ name ∈ qualifier, name.IsSound) (hexcept : ∀ name ∈ except, name.IsSound) :
    ∃ whole : Spelling, whole.Writes (wildcardLabel qualifier except) ∧
      whole.pieces = (.word, "Wildcard") ::
        (qualifier.toList.flatMap (fun name => name.spelling.pieces) ++ exceptPieces except) := by
  have hword : Writes [Atom.word "Wildcard"] "Wildcard" := .keyword (by decide)
  have hexceptWrites {label : String} {spelling : Spelling} (h : spelling.Writes label) :
      ∃ whole : Spelling,
        whole.Writes (flagged label [flag (!except.isEmpty) ("EXCEPT " ++ identifierList except)]) ∧
          whole.pieces = spelling.pieces ++ exceptPieces except := by
    by_cases hne : except = []
    · subst hne
      exact ⟨spelling, by simpa [flag] using h, by simp [exceptPieces]⟩
    · have hnames : Writes _ ("EXCEPT " ++ identifierList except) :=
        (writes_identifierList hne hexcept).after "EXCEPT" (by decide) (by decide)
      refine ⟨_, by simpa [flag, hne] using h.gap hnames, ?_⟩
      simp [exceptPieces, hne, Atom.word]
  cases qualifier with
  | none =>
    obtain ⟨whole, hwhole, hpieces⟩ := hexceptWrites hword
    exact ⟨whole, by simpa [wildcardLabel] using hwhole, by simp [hpieces, Atom.word]⟩
  | some name =>
    have hname := QualifiedName.writes (QualifiedName.isSegment_of_isSound (hqualifier name rfl))
    obtain ⟨whole, hwhole, hpieces⟩ := hexceptWrites (hword.gap hname)
    exact ⟨whole, by simpa [wildcardLabel] using hwhole, by simp [hpieces, Atom.word]⟩

/-- The word before the columns that are left out is reserved, so no name starts with it. -/
theorem exceptPieces_ne {name : QualifiedName} (hname : name.IsSound) {except : List Identifier}
    {rest : List (Kind × String)} : exceptPieces except ≠ name.first.piece :: rest := by
  have hpiece : name.first.piece ≠ (.word, "EXCEPT") := by
    intro hpiece
    have hraw : name.first.raw = "EXCEPT" := congrArg Prod.snd hpiece
    rcases hname.first with ⟨-, hreserved⟩ | ⟨body, hquoted, -⟩
    · rw [hraw] at hreserved
      exact absurd hreserved (by decide)
    · rw [hraw] at hquoted
      exact absurd (List.cons.inj hquoted).1 (by decide)
  intro heq
  unfold exceptPieces at heq
  split at heq
  · cases heq
  · exact hpiece (List.cons.inj heq).1.symm

theorem exceptPieces_inj {except others : List Identifier} (h : exceptPieces except = exceptPieces others) :
    except = others := by
  cases except with
  | nil =>
    cases others with
    | nil => rfl
    | cons => cases h
  | cons =>
    cases others with
    | nil => cases h
    | cons => exact eq_of_commas (List.cons.inj h).2

theorem eq_of_wildcardLabel {qualifier other : Option QualifiedName} {except others : List Identifier}
    (hqualifier : ∀ name ∈ qualifier, name.IsSound) (hother : ∀ name ∈ other, name.IsSound)
    (hexcept : ∀ name ∈ except, name.IsSound) (hothers : ∀ name ∈ others, name.IsSound)
    (h : wildcardLabel qualifier except = wildcardLabel other others) :
    qualifier = other ∧ except = others := by
  obtain ⟨whole, hwhole, hpieces⟩ := exists_wildcardLabel hqualifier hexcept
  obtain ⟨whole', hwhole', hpieces'⟩ := exists_wildcardLabel hother hothers
  have hsame := hwhole.pieces_eq (h ▸ hwhole')
  rw [hpieces, hpieces'] at hsame
  have hparts := (List.cons.inj hsame).2
  have hdot (columns : List Identifier) : ∀ piece ∈ (exceptPieces columns).head?, piece.1 ≠ .dot := by
    unfold exceptPieces
    split <;> simp
  cases qualifier with
  | none =>
    cases other with
    | none => exact ⟨rfl, exceptPieces_inj hparts⟩
    | some name =>
      rw [Option.toList_some, List.flatMap_singleton, name.pieces_spelling] at hparts
      exact absurd hparts (exceptPieces_ne (hother name rfl))
  | some name =>
    cases other with
    | none =>
      rw [Option.toList_some, List.flatMap_singleton, name.pieces_spelling] at hparts
      exact absurd hparts.symm (exceptPieces_ne (hqualifier name rfl))
    | some next =>
      simp only [Option.toList_some, List.flatMap_singleton] at hparts
      obtain ⟨rfl, hrests⟩ := QualifiedName.eq_of_pieces (hdot except) (hdot others) hparts
      exact ⟨rfl, exceptPieces_inj hrests⟩

end Optional

end SqlLayout
