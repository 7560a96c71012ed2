import RelayLifeline.Lib.Json.Fields

/-!
# What is read is of the grammar

The other direction of reading: a text that is read begins with a token, or with
a document, that follows the grammar and nests no deeper than was allowed, and
what is left is what follows it.
-/

namespace RelayLifeline.Lib.Json

/-! ## Tokens -/

theorem readString_sound {s : Text} : ∀ {body rest : Text}, readString s = some (body, rest) →
    IsString body ∧ s = body ++ quoteMark :: rest := by
  induction s using readString.induct with
  | case1 => intro body rest h; cases h
  | case2 s =>
      intro body rest h
      rw [readString.eq_def] at h
      simp only [if_true] at h
      cases h
      exact ⟨.nil, rfl⟩
  | case3 => intro body rest h; cases h
  | case4 i j k l s hhex hne ih =>
      intro body rest h
      rw [readString.eq_def] at h
      simp only [hne, if_false, if_true, hhex] at h
      obtain ⟨⟨tail, rest'⟩, hread, heq⟩ := Option.map_eq_some_iff.1 h
      cases heq
      obtain ⟨hstring, rfl⟩ := ih hread
      exact ⟨.unicode hhex hstring, rfl⟩
  | case5 i j k l s hhex hne =>
      intro body rest h
      rw [readString.eq_def] at h
      simp [hhex, hne] at h
  | case6 s hshort hne =>
      intro body rest h
      rw [readString.eq_def] at h
      simp only [hne, if_false, if_true] at h
      cases h
  | case7 e s hne hescape hquote ih =>
      intro body rest h
      rw [readString.eq_def] at h
      simp only [hquote, if_false, if_true, hne, hescape] at h
      obtain ⟨⟨tail, rest'⟩, hread, heq⟩ := Option.map_eq_some_iff.1 h
      cases heq
      obtain ⟨hstring, rfl⟩ := ih hread
      exact ⟨.escape hescape hstring, rfl⟩
  | case8 e s hne hescape hquote =>
      intro body rest h
      rw [readString.eq_def] at h
      simp [hne, hescape, hquote] at h
  | case9 c s hquote hbackslash hcontrol =>
      intro body rest h
      rw [readString.eq_def] at h
      simp [hquote, hbackslash, hcontrol] at h
  | case10 c s hquote hbackslash hcontrol ih =>
      intro body rest h
      rw [readString.eq_def] at h
      simp only [hquote, hbackslash, hcontrol, if_false] at h
      obtain ⟨⟨tail, rest'⟩, hread, heq⟩ := Option.map_eq_some_iff.1 h
      cases heq
      obtain ⟨hstring, rfl⟩ := ih hread
      exact ⟨.char hcontrol hquote hbackslash hstring, rfl⟩

theorem readDigits_sound {s digits rest : Text} (h : readDigits s = some (digits, rest)) :
    IsDigits digits ∧ s = digits ++ rest := by
  rw [readDigits] at h
  split at h
  next => cases h
  next hne =>
    cases h
    exact ⟨.intro hne (List.all_eq_true.1 List.all_takeWhile), List.takeWhile_append_dropWhile.symm⟩

theorem readInteger_sound {s integer rest : Text} (h : readInteger s = some (integer, rest)) :
    IsInteger integer ∧ s = integer ++ rest := by
  cases s with
  | nil => cases h
  | cons c s =>
      rw [readInteger] at h
      split at h
      next hzero =>
        cases h
        rw [hzero]
        exact ⟨.zero, rfl⟩
      next hzero =>
        obtain ⟨hdigits, heq⟩ := readDigits_sound h
        cases hdigits with
        | intro hne hall =>
            obtain ⟨d, digits, rfl⟩ := List.exists_cons_of_ne_nil hne
            obtain ⟨rfl, -⟩ := List.cons.inj heq
            exact ⟨.digits hzero (.intro hne hall), heq⟩

theorem readFraction_sound {s fraction rest : Text} (h : readFraction s = some (fraction, rest)) :
    IsFraction fraction ∧ s = fraction ++ rest := by
  cases s with
  | nil =>
      cases h
      exact ⟨.none, rfl⟩
  | cons c s =>
      rw [readFraction] at h
      split at h
      next hpoint =>
        obtain ⟨⟨digits, rest'⟩, hread, heq⟩ := Option.map_eq_some_iff.1 h
        cases heq
        obtain ⟨hdigits, rfl⟩ := readDigits_sound hread
        rw [hpoint]
        exact ⟨.digits hdigits, rfl⟩
      next =>
        cases h
        exact ⟨.none, rfl⟩

theorem readExponent_sound {s exponent rest : Text} (h : readExponent s = some (exponent, rest)) :
    IsExponent exponent ∧ s = exponent ++ rest := by
  cases s with
  | nil =>
      cases h
      exact ⟨.none, rfl⟩
  | cons c s =>
      rw [readExponent] at h
      split at h
      next hexponent =>
        obtain ⟨⟨digits, rest'⟩, hread, heq⟩ := Option.map_eq_some_iff.1 h
        cases heq
        obtain ⟨hdigits, hrest⟩ := readDigits_sound hread
        cases s with
        | nil =>
            cases hdigits with
            | intro hne _ => exact absurd (List.append_eq_nil_iff.1 hrest.symm).1 hne
        | cons d s =>
            rw [readSign] at hrest ⊢
            split at hrest
            next hsign =>
              rw [if_pos hsign]
              have hrest : s = digits ++ rest' := hrest
              exact ⟨.signed hexponent hsign hdigits, by rw [hrest]; rfl⟩
            next hsign =>
              rw [if_neg hsign]
              have hrest : d :: s = digits ++ rest' := hrest
              exact ⟨.plain hexponent hdigits, by rw [hrest]; rfl⟩
      next =>
        cases h
        exact ⟨.none, rfl⟩

theorem readUnsigned_sound {s number rest : Text} (h : readUnsigned s = some (number, rest)) :
    IsUnsigned number ∧ s = number ++ rest := by
  rw [readUnsigned] at h
  obtain ⟨⟨integer, s'⟩, hinteger, h⟩ := Option.bind_eq_some_iff.1 h
  obtain ⟨⟨fraction, s''⟩, hfraction, h⟩ := Option.bind_eq_some_iff.1 h
  obtain ⟨⟨exponent, rest'⟩, hexponent, heq⟩ := Option.map_eq_some_iff.1 h
  cases heq
  obtain ⟨hisInteger, rfl⟩ := readInteger_sound hinteger
  obtain ⟨hisFraction, rfl⟩ := readFraction_sound hfraction
  obtain ⟨hisExponent, rfl⟩ := readExponent_sound hexponent
  exact ⟨.intro hisInteger hisFraction hisExponent, by simp only [List.append_assoc]⟩

theorem readNumber_sound {s number rest : Text} (h : readNumber s = some (number, rest)) :
    IsNumber number ∧ s = number ++ rest := by
  cases s with
  | nil => cases h
  | cons c s =>
      rw [readNumber] at h
      split at h
      next hminus =>
        obtain ⟨⟨digits, rest'⟩, hread, heq⟩ := Option.map_eq_some_iff.1 h
        cases heq
        obtain ⟨hunsigned, rfl⟩ := readUnsigned_sound hread
        rw [hminus]
        exact ⟨.negative hunsigned, rfl⟩
      next =>
        obtain ⟨hunsigned, heq⟩ := readUnsigned_sound h
        exact ⟨.plain hunsigned, heq⟩

theorem readLiteral_sound {F : Type} {word s rest : Text} {value v : Value F}
    (h : readLiteral word value s = some (v, rest)) : s = word ++ rest := by
  rw [readLiteral] at h
  split at h
  next hprefix =>
    cases h
    obtain ⟨tail, rfl⟩ := List.isPrefixOf_iff_prefix.1 hprefix
    rw [List.drop_left]
  next => cases h

variable {F : Type} {numbers : Numbers F}

theorem readScalar_sound {s rest : Text} {v : Value F} (h : readScalar numbers s = some (v, rest)) :
    ∃ token : Token, token.WellFormed ∧ s = token.text ++ rest := by
  cases s with
  | nil => cases h
  | cons c s =>
      rw [readScalar] at h
      split at h
      next hquote =>
        obtain ⟨⟨body, rest'⟩, hread, heq⟩ := Option.map_eq_some_iff.1 h
        cases heq
        obtain ⟨hstring, rfl⟩ := readString_sound hread
        rw [hquote]
        exact ⟨.string body, hstring, by rw [Token.text, List.cons_append, List.append_assoc]; rfl⟩
      next =>
        split at h
        next => exact ⟨.bool true, trivial, readLiteral_sound h⟩
        next =>
          split at h
          next => exact ⟨.bool false, trivial, readLiteral_sound h⟩
          next =>
            split at h
            next => exact ⟨.null, trivial, readLiteral_sound h⟩
            next =>
              obtain ⟨⟨number, rest'⟩, hread, h⟩ := Option.bind_eq_some_iff.1 h
              obtain ⟨x, -, heq⟩ := Option.map_eq_some_iff.1 h
              cases heq
              obtain ⟨hnumber, heq⟩ := readNumber_sound hread
              exact ⟨.number number, hnumber, heq⟩

/-! ## Values -/

/-- What is found behind whitespace. -/
theorem exists_spaces {s t : Text} (h : s.dropWhile isSpace = t) :
    ∃ before, IsSpaces before ∧ s = before ++ t :=
  ⟨s.takeWhile isSpace, List.all_eq_true.1 List.all_takeWhile, by
    rw [← h, List.takeWhile_append_dropWhile]⟩

theorem eq_of_head? {s : Text} {c : UInt8} (h : s.head? = some c) : s = c :: s.tail := by
  cases s with
  | nil => cases h
  | cons d s => rw [Option.some.inj h]; rfl

/-- The three readers go by the fuel together. -/
theorem read_sound (n : Nat) :
    (∀ (k : Nat) (s : Text) (v : Value F) (rest : Text),
      readValue numbers n k s = some (v, rest) →
        ∃ d : Document, d.WellFormed ∧ d.depth ≤ k ∧ s = d.text ++ rest) ∧
    (∀ (k : Nat) (s : Text) (vs : List (Value F)) (rest : Text),
      readItems numbers n k s = some (vs, rest) →
        ∃ items : Items, items.WellFormed ∧ items.depth ≤ k ∧
          s = items.text ++ closeBracket :: rest) ∧
    ∀ (k : Nat) (s : Text) (vs : List (Text × Value F)) (rest : Text),
      readMembers numbers n k s = some (vs, rest) →
        ∃ members : Members, members.WellFormed ∧ members.depth ≤ k ∧
          s = members.text ++ closeBrace :: rest := by
  induction n with
  | zero =>
      refine ⟨fun k s v rest h => ?_, fun k s vs rest h => ?_, fun k s vs rest h => ?_⟩
      · cases h
      · cases h
      · cases h
  | succ n ih =>
      obtain ⟨hvalue, hitems, hmembers⟩ := ih
      refine ⟨fun k s v rest h => ?_, fun k s vs rest h => ?_, fun k s vs rest h => ?_⟩
      · cases s with
        | nil => cases h
        | cons c s =>
            rw [readValue] at h
            split at h
            next hopen =>
              split at h
              next => cases h
              next hdepth =>
                split at h
                next hempty =>
                  cases h
                  obtain ⟨space, hspace, heq⟩ := exists_spaces (eq_of_head? hempty)
                  refine ⟨.emptyArray space, hspace, Nat.one_le_iff_ne_zero.2 hdepth, ?_⟩
                  rw [Document.text, hopen, List.cons_append, List.append_assoc]
                  exact congrArg _ heq
                next =>
                  obtain ⟨⟨vs, rest'⟩, hread, heq⟩ := Option.map_eq_some_iff.1 h
                  cases heq
                  obtain ⟨items, hitem, hk, rfl⟩ := hitems _ _ _ _ hread
                  refine ⟨.array items, hitem, by rw [Document.depth]; omega, ?_⟩
                  rw [Document.text, hopen, List.cons_append, List.append_assoc]
                  rfl
            next =>
              split at h
              next hopen =>
                split at h
                next => cases h
                next hdepth =>
                  split at h
                  next hempty =>
                    cases h
                    obtain ⟨space, hspace, heq⟩ := exists_spaces (eq_of_head? hempty)
                    refine ⟨.emptyObject space, hspace, Nat.one_le_iff_ne_zero.2 hdepth, ?_⟩
                    rw [Document.text, hopen, List.cons_append, List.append_assoc]
                    exact congrArg _ heq
                  next =>
                    obtain ⟨⟨vs, rest'⟩, hread, heq⟩ := Option.map_eq_some_iff.1 h
                    cases heq
                    obtain ⟨members, hmember, hk, rfl⟩ := hmembers _ _ _ _ hread
                    refine ⟨.object members, hmember, by rw [Document.depth]; omega, ?_⟩
                    rw [Document.text, hopen, List.cons_append, List.append_assoc]
                    rfl
              next =>
                obtain ⟨token, htoken, heq⟩ := readScalar_sound h
                exact ⟨.token token, htoken, Nat.zero_le _, heq⟩
      · rw [readItems] at h
        obtain ⟨⟨v, s'⟩, hread, hitem⟩ := Option.bind_eq_some_iff.1 h
        obtain ⟨item, hdocument, hk, heq⟩ := hvalue _ _ _ _ hread
        obtain ⟨before, hbefore, rfl⟩ := exists_spaces heq
        dsimp only at hitem
        split at hitem
        next => cases hitem
        next c tail hafter =>
          obtain ⟨after, hspaces, rfl⟩ := exists_spaces hafter
          split at hitem
          next hcomma =>
            obtain ⟨⟨vs', rest'⟩, hrest, heq'⟩ := Option.map_eq_some_iff.1 hitem
            cases heq'
            obtain ⟨items, hitems, hk', rfl⟩ := hitems _ _ _ _ hrest
            refine ⟨.more before item after items, ⟨hbefore, hdocument, hspaces, hitems⟩,
              Nat.max_le.2 ⟨hk, hk'⟩, ?_⟩
            rw [hcomma]
            simp only [Items.text, List.append_assoc, List.cons_append]
          next =>
            split at hitem
            next hclose =>
              cases hitem
              refine ⟨.last before item after, ⟨hbefore, hdocument, hspaces⟩, hk, ?_⟩
              rw [hclose]
              simp only [Items.text, List.append_assoc]
            next => cases hitem
      · rw [readMembers] at h
        split at h
        next => cases h
        next c tail hbefore =>
          obtain ⟨before, hspaces, rfl⟩ := exists_spaces hbefore
          split at h
          next hquote =>
            obtain ⟨⟨name, s'⟩, hname, hnamed⟩ := Option.bind_eq_some_iff.1 h
            obtain ⟨hstring, rfl⟩ := readString_sound hname
            dsimp only at hnamed
            split at hnamed
            next => cases hnamed
            next d tail' hmiddle =>
              obtain ⟨middle, hspaces', rfl⟩ := exists_spaces hmiddle
              split at hnamed
              next hcolon =>
                obtain ⟨⟨v, s''⟩, hread, hmember⟩ := Option.bind_eq_some_iff.1 hnamed
                obtain ⟨value, hdocument, hk, heq⟩ := hvalue _ _ _ _ hread
                obtain ⟨space, hspace, rfl⟩ := exists_spaces heq
                dsimp only at hmember
                split at hmember
                next => cases hmember
                next e tail'' hafter =>
                  obtain ⟨after, hspaces'', rfl⟩ := exists_spaces hafter
                  split at hmember
                  next hcomma =>
                    obtain ⟨⟨vs', rest'⟩, hrest, heq'⟩ := Option.map_eq_some_iff.1 hmember
                    cases heq'
                    obtain ⟨members, hmembers, hk', rfl⟩ := hmembers _ _ _ _ hrest
                    refine ⟨.more before name middle space value after members,
                      ⟨hspaces, hstring, hspaces', hspace, hdocument, hspaces'', hmembers⟩,
                      Nat.max_le.2 ⟨hk, hk'⟩, ?_⟩
                    rw [hquote, hcolon, hcomma]
                    simp only [Members.text, List.append_assoc, List.cons_append]
                  next =>
                    split at hmember
                    next hclose =>
                      cases hmember
                      refine ⟨.last before name middle space value after,
                        ⟨hspaces, hstring, hspaces', hspace, hdocument, hspaces''⟩, hk, ?_⟩
                      rw [hquote, hcolon, hclose]
                      simp only [Members.text, List.append_assoc, List.cons_append]
                    next => cases hmember
              next => cases hnamed
          next => cases h

/-! ## Fields -/

/-- The text of a field is that of a document. -/
theorem mem_readFields (n : Nat) : ∀ {k : Nat} {s rest : Text} {fields : List (Text × Text)},
    readFields n k s = some (fields, rest) → ∀ field ∈ fields,
      ∃ d : Document, d.WellFormed ∧ d.depth ≤ k ∧ field.2 = d.text := by
  induction n with
  | zero => intro k s rest fields h; cases h
  | succ n ih =>
      intro k s rest fields h
      rw [readFields] at h
      split at h
      next => cases h
      next c tail _ =>
        split at h
        next =>
          obtain ⟨⟨name, s'⟩, -, hnamed⟩ := Option.bind_eq_some_iff.1 h
          dsimp only at hnamed
          split at hnamed
          next => cases hnamed
          next d tail' _ =>
            split at hnamed
            next =>
              obtain ⟨⟨v, s''⟩, hread, hfield⟩ := Option.bind_eq_some_iff.1 hnamed
              obtain ⟨value, hdocument, hk, heq⟩ := (read_sound n).1 _ _ _ _ hread
              have htext : (tail'.dropWhile isSpace).take
                  ((tail'.dropWhile isSpace).length - s''.length) = value.text := by
                rw [heq, List.length_append, Nat.add_sub_cancel, List.take_left]
              dsimp only at hfield
              rw [htext] at hfield
              split at hfield
              next => cases hfield
              next e tail'' _ =>
                split at hfield
                next =>
                  obtain ⟨⟨others, rest'⟩, hrest, heq'⟩ := Option.map_eq_some_iff.1 hfield
                  cases heq'
                  intro field hmem
                  rcases List.mem_cons.1 hmem with rfl | hmem
                  · exact ⟨value, hdocument, hk, rfl⟩
                  · exact ih hrest field hmem
                next =>
                  split at hfield
                  next =>
                    cases hfield
                    intro field hmem
                    rw [List.mem_singleton.1 hmem]
                    exact ⟨value, hdocument, hk, rfl⟩
                  next => cases hfield
            next => cases hnamed
        next => cases h

theorem mem_unmarshalFields {s : Text} {fields : List (Text × Text)}
    (h : unmarshalFields s = some fields) {field : Text × Text} (hmem : field ∈ fields) :
    ∃ d : Document, d.WellFormed ∧ d.depth < maxNestingDepth ∧ field.2 = d.text := by
  rw [unmarshalFields] at h
  split at h
  next => cases h
  next c rest _ =>
    split at h
    next =>
      split at h
      next =>
        split at h
        next =>
          cases h
          exact absurd hmem List.not_mem_nil
        next => cases h
      next =>
        obtain ⟨⟨found, rest'⟩, hread, heq⟩ := Option.bind_eq_some_iff.1 h
        split at heq
        next =>
          cases heq
          obtain ⟨d, hd, hk, htext⟩ := mem_readFields _ hread field hmem
          exact ⟨d, hd, Nat.lt_of_le_of_lt hk (by decide), htext⟩
        next => cases heq
    next =>
      split at h
      next =>
        cases h
        exact absurd hmem List.not_mem_nil
      next => cases h

/-! ## Objects that are cut off -/

/-- Fields are read where members are. -/
theorem readMembers_of_readFields (n : Nat) : ∀ {k : Nat} {s rest : Text}
    {fields : List (Text × Text)}, readFields n k s = some (fields, rest) →
      ∃ values, readMembers anyNumbers n k s = some (values, rest) := by
  induction n with
  | zero => intro k s rest fields h; cases h
  | succ n ih =>
      intro k s rest fields h
      rw [readFields] at h
      rw [readMembers]
      cases heq : s.dropWhile isSpace with
      | nil =>
        rw [heq] at h
        cases h
      | cons c tail =>
        rw [heq] at h
        dsimp only at h ⊢
        split at h
        next hquote =>
          obtain ⟨⟨name, s'⟩, hname, hnamed⟩ := Option.bind_eq_some_iff.1 h
          rw [if_pos hquote, hname, Option.bind_some]
          dsimp only at hnamed ⊢
          cases heq' : s'.dropWhile isSpace with
          | nil =>
            rw [heq'] at hnamed
            cases hnamed
          | cons d tail' =>
            rw [heq'] at hnamed
            dsimp only at hnamed ⊢
            split at hnamed
            next hcolon =>
              obtain ⟨⟨v, s''⟩, hread, hfield⟩ := Option.bind_eq_some_iff.1 hnamed
              rw [if_pos hcolon, hread, Option.bind_some]
              dsimp only at hfield ⊢
              cases heq'' : s''.dropWhile isSpace with
              | nil =>
                rw [heq''] at hfield
                cases hfield
              | cons e tail'' =>
                rw [heq''] at hfield
                dsimp only at hfield ⊢
                split at hfield
                next hcomma =>
                  obtain ⟨⟨others, rest'⟩, hrest, heq'⟩ := Option.map_eq_some_iff.1 hfield
                  cases heq'
                  obtain ⟨values, hvalues⟩ := ih hrest
                  rw [if_pos hcomma, hvalues]
                  exact ⟨_, rfl⟩
                next hcomma =>
                  split at hfield
                  next hclose =>
                    cases hfield
                    rw [if_neg hcomma, if_pos hclose]
                    exact ⟨_, rfl⟩
                  next => cases hfield
            next => cases hnamed
        next => cases h

theorem head?_dropWhile_append {s t : Text} {c : UInt8}
    (h : (s.dropWhile isSpace).head? = some c) : ((s ++ t).dropWhile isSpace).head? = some c := by
  induction s with
  | nil => cases h
  | cons b s ih =>
      cases hb : isSpace b with
      | true =>
          rw [List.dropWhile_cons_of_pos hb] at h
          rw [List.cons_append, List.dropWhile_cons_of_pos hb]
          exact ih h
      | false =>
          rw [dropWhile_cons hb] at h
          rw [List.cons_append, dropWhile_cons hb]
          exact h

/-- The text of an object that is cut off is not read. -/
theorem unmarshalFields_torn {members : Members} (h : members.WellFormed) {part rest : Text}
    (heq : part ++ rest = (Document.object members).text) (hrest : rest ≠ []) :
    unmarshalFields part = none := by
  match part with
  | [] => rfl
  | c :: part =>
    rw [Document.text, List.cons_append] at heq
    obtain ⟨rfl, htail⟩ := List.cons.inj heq
    obtain ⟨c, t, hdrop, hc⟩ := Members.cons h [closeBrace]
    have hopen : (part.dropWhile isSpace).head? ≠ some closeBrace := by
      intro hclose
      have hhead := head?_dropWhile_append (t := rest) hclose
      rw [htail, hdrop] at hhead
      exact hc (Option.some.inj hhead)
    rw [unmarshalFields, dropWhile_cons (by decide)]
    show (if openBrace = openBrace then _ else _) = _
    rw [if_pos rfl, if_neg hopen]
    cases hread : readFields (2 * (openBrace :: part).length) (maxNestingDepth - 1) part with
    | none => rfl
    | some read =>
      obtain ⟨values, hmembers⟩ := readMembers_of_readFields _ hread
      obtain ⟨members', hwell', -, hpart⟩ := (read_sound _).2.2 _ _ _ _ hmembers
      have htext : members'.text ++ closeBrace :: (read.2 ++ rest) =
          members.text ++ closeBrace :: [] := by
        rw [← htail, hpart, List.append_assoc]
        rfl
      have hlength := congrArg List.length htail
      rw [hpart] at hlength
      simp only [List.length_append, List.length_cons, List.length_nil] at hlength
      have hwhole := members.read_fields h (2 * (part ++ rest).length + 1)
        (max members.depth members'.depth) []
        (by rw [hpart]; simp only [List.length_append, List.length_cons]; omega)
        (Nat.le_max_left _ _)
      have hcut := members'.read_fields hwell' (2 * (part ++ rest).length + 1)
        (max members.depth members'.depth) (read.2 ++ rest)
        (by rw [hpart]; simp only [List.length_append, List.length_cons]; omega)
        (Nat.le_max_right _ _)
      rw [htext, hwhole] at hcut
      have hempty := (Prod.mk.inj (Option.some.inj hcut)).2
      exact absurd (List.append_eq_nil_iff.1 hempty.symm).2 hrest

end RelayLifeline.Lib.Json
