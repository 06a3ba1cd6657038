import ExprImports.Proofs.Surface.Soundness

/-!
# Names are made of words

An identifier is cut from a text as a word, of letters, digits and underscores. The name of a
type is spelled by identifiers with dots between them. So whatever the text is, the names of
types that are read from it contain these characters and no other
(`namesDotted_of_parse`).
-/

set_option autoImplicit false

namespace ExprImports.Surface

/-- The name contains letters, digits and underscores only. -/
def IsWord (name : String) : Prop :=
  ∀ c ∈ name.toList, isWordPart c = true

/-- The name contains letters, digits, underscores and dots only. -/
def IsDotted (name : String) : Prop :=
  ∀ c ∈ name.toList, isWordPart c = true ∨ c = '.'

theorem IsWord.isDotted {name : String} (word : IsWord name) : IsDotted name :=
  fun c inside => .inl (word c inside)

theorem IsDotted.append {first second : String} (dotted : IsDotted first)
    (further : IsDotted second) : IsDotted (first ++ second) := by
  intro c inside
  rw [String.toList_append] at inside
  exact (List.mem_append.mp inside).elim (dotted c) (further c)

/-! ## Identifiers are words -/

theorem readWord?_isWord {text : List Char} {reading : Reading} {name : String}
    (done : readWord? text = some reading) (isName : reading.kind = .identifier name) :
    IsWord name := by
  unfold readWord? at done
  split at done
  · split at done
    · cases done
      dsimp only at isName
      unfold wordKind at isName
      split at isName
      · cases isName
      · cases isName
        intro c inside
        rw [String.toList_ofList] at inside
        exact List.all_eq_true.mp List.all_takeWhile c inside
    · cases done
  · cases done

/-- A symbol, a number and a string are no identifiers. -/
theorem readToken?_isWord {text : List Char} {reading : Reading} {name : String}
    (done : readToken? text = some reading) (isName : reading.kind = .identifier name) :
    IsWord name := by
  simp only [readToken?, Option.or_eq_some_iff] at done
  obtain symbol | ⟨_, number | ⟨_, string | ⟨_, word⟩⟩⟩ := done
  · obtain ⟨_, _, rfl⟩ := Option.map_eq_some_iff.mp symbol
    cases isName
  · unfold readNumber? at number
    dsimp only at number
    repeat' split at number
    all_goals cases number
    all_goals cases isName
  · unfold readText? at string
    split at string
    · obtain ⟨_, _, rfl⟩ := Option.map_eq_some_iff.mp string
      cases isName
    · cases string
  · exact readWord?_isWord word isName

/-- All identifiers among the tokens are words. -/
def WordsOnly (tokens : List Token) : Prop :=
  ∀ token ∈ tokens, ∀ name, token.kind = .identifier name → IsWord name

theorem WordsOnly.subset {tokens segment : List Token} (words : WordsOnly tokens)
    (inside : segment ⊆ tokens) : WordsOnly segment :=
  fun token isToken => words token (inside isToken)

theorem wordsOnly_readTokens (offset : Nat) (text : List Char) :
    WordsOnly (readTokens offset text).1 := by
  fun_induction readTokens offset text with
  | case1 => exact List.forall_mem_nil _
  | case2 offset text start front reading found length tokens stop rest more ih =>
    rw [more] at ih
    exact List.forall_mem_cons.mpr ⟨fun name => readToken?_isWord found, ih⟩

theorem wordsOnly_of_tokenize {text : String} {tokens : List Token}
    (done : tokenize text = .ok tokens) : WordsOnly tokens := by
  have words := wordsOnly_readTokens 0 text.toList
  unfold tokenize at done
  dsimp only at done
  split at done
  · cases done
    refine List.forall_mem_append.mpr ⟨words, List.forall_mem_singleton.mpr ?_⟩
    nofun
  · split at done <;> cases done

/-! ## Names of types -/

theorem TypeName.SpelledBy.isDotted {type : TypeName} {segment : List Token}
    (spelled : type.SpelledBy segment) (words : WordsOnly segment) : IsDotted type.name := by
  induction spelled with
  | single => exact (words _ (List.mem_singleton_self _) _ rfl).isDotted
  | dotted front _ ih =>
    have dotted := ih (words.subset (List.subset_append_left _ _))
    have part : IsWord _ := words _ (List.mem_append_right _ (List.mem_cons_of_mem _
      (List.mem_singleton_self _))) _ rfl
    have dot : IsDotted "." := by
      intro c isDot
      exact .inr (List.mem_singleton.mp isDot)
    exact (dotted.append dot).append part.isDotted

/-- The names of types that occur in an expression contain letters, digits, underscores and
dots only. -/
def Expression.NamesDotted (expression : Expression) : Prop :=
  ∀ type : TypeName, (Part.type type).Occurs (.expression expression) → IsDotted type.name

theorem Expression.NamesDotted.part {whole part : Expression} (names : whole.NamesDotted)
    (isPart : Part.expression part ∈ whole.parts) : part.NamesDotted :=
  fun type occurs => names type (.inPart isPart occurs)

theorem Expression.NamesDotted.own {whole : Expression} {type : TypeName}
    (names : whole.NamesDotted) (isPart : Part.type type ∈ whole.parts) : IsDotted type.name :=
  names type (.inPart isPart .root)

/-- **Whatever the text, the names of types in it are dotted words.** -/
theorem namesDotted_of_parse {text : String} {tokens : List Token} {expression : Expression}
    (cut : tokenize text = .ok tokens) (done : parse tokens = .ok expression) :
    expression.NamesDotted := by
  intro type occurs
  obtain ⟨segment, inside, spelled⟩ := exists_segment_of_parse cut done occurs
  exact TypeName.SpelledBy.isDotted spelled ((wordsOnly_of_tokenize cut).subset inside)

end ExprImports.Surface
