import CodeAtlas.Parse.Orchestrator
import CodeAtlas.Proofs.Text

/-! The kind of failure that is read off a parser's error. It fits the kind of the error, unless the
parser's own message holds a word that stands for another kind and is looked for first. -/

namespace CodeAtlas

open Repair

/-! ## Words in messages -/

/-- A message in the form in which words are looked for. -/
def folded (message : String) : Text :=
  message.toList.flatMap searchFold

theorem folded_append (kind message : String) :
    folded (kind ++ message) = folded kind ++ folded message := by
  simp [folded]

theorem containsAny_iff {text : Text} {words : List String} :
    text.containsAny words = true ↔ ∃ word ∈ words, word.toList <:+: text := by
  simp [Text.containsAny, Text.contains_iff_infix]

theorem containsAny_append_left {front : Text} {words : List String}
    (h : front.containsAny words = true) (back : Text) :
    (front ++ back).containsAny words = true := by
  obtain ⟨word, hword, hinfix⟩ := containsAny_iff.mp h
  exact containsAny_iff.mpr ⟨word, hword, hinfix.trans (List.prefix_append front back).isInfix⟩

/-- No word holds a colon or starts with a blank, so that none reaches over the end of a kind's
name. -/
def AreSeparate (words : List String) : Prop :=
  ∀ word ∈ words, ':' ∉ word.toList ∧ word.toList.head? ≠ some ' '

instance (words : List String) : Decidable (AreSeparate words) :=
  inferInstanceAs (Decidable (∀ word ∈ words, _))

theorem infix_of_infix_kind {word kind message : Text} (hcolon : ':' ∉ word)
    (hblank : word.head? ≠ some ' ') (h : word <:+: kind ++ ':' :: ' ' :: message) :
    word <:+: kind ∨ word <:+: message := by
  rcases Text.infix_or_infix_of_append_cons hcolon h with hkind | hrest
  · exact .inl hkind
  · rcases List.infix_cons_iff.mp hrest with hprefix | hmessage
    · rcases List.prefix_cons_iff.mp hprefix with rfl | ⟨rest, rfl, -⟩
      · exact .inl List.nil_infix
      · exact absurd rfl hblank
    · exact .inr hmessage

/-- A word is found in the name of a kind or in the message behind it. -/
theorem containsAny_kind {words : List String} (h : AreSeparate words) (kind message : Text) :
    (kind ++ ':' :: ' ' :: message).containsAny words =
      (kind.containsAny words || message.containsAny words) := by
  rw [Bool.eq_iff_iff, Bool.or_eq_true, containsAny_iff, containsAny_iff, containsAny_iff]
  constructor
  · rintro ⟨word, hword, hinfix⟩
    obtain ⟨hcolon, hblank⟩ := h word hword
    exact (infix_of_infix_kind hcolon hblank hinfix).imp (⟨word, hword, ·⟩) (⟨word, hword, ·⟩)
  · rintro (⟨word, hword, hkind⟩ | ⟨word, hword, hmessage⟩)
    · exact ⟨word, hword, hkind.trans (List.prefix_append kind _).isInfix⟩
    · have hsuffix : message <:+ kind ++ ':' :: ' ' :: message :=
        ⟨kind ++ [':', ' '], by simp⟩
      exact ⟨word, hword, hmessage.trans hsuffix.isInfix⟩

/-- Words that the name of a kind does not hold are those of the message. -/
theorem containsAny_folded {words : List String} (h : AreSeparate words) {label : String}
    {name : Text} (hlabel : folded label = name ++ [':', ' '])
    (hname : name.containsAny words = false) (message : String) :
    (folded (label ++ message)).containsAny words = (folded message).containsAny words := by
  have hkind : folded (label ++ message) = name ++ ':' :: ' ' :: folded message := by
    simp [folded_append, hlabel]
  rw [hkind, containsAny_kind h, hname, Bool.false_or]

/-! ## Kinds of errors -/

theorem classify_eq (message : String) (content : Text) : classify message content =
    if (folded message).containsAny encodingWords then .encodingError
    else if (folded message).containsAny timeoutWords then .timeoutError
    else if (folded message).containsAny resourceWords then .resourceError
    else if (folded message).containsAny syntaxWords then classifySyntax (folded message) content
    else if (folded message).containsAny parseWords then .parseError
    else .unknownError :=
  rfl

theorem classifySyntax_mem (message content : Text) : classifySyntax message content ∈
    [Fault.bracketMismatch, .quoteMismatch, .missingSemicolon, .parseError] := by
  unfold classifySyntax
  split_ifs <;> simp

/-- A syntax error is taken for another kind of error by the words of its message. -/
theorem faultOf_badSyntax (path message : String) (content : Bytes) :
    faultOf (.badSyntax path message) content =
      if (folded message).containsAny encodingWords then .encodingError
      else if (folded message).containsAny timeoutWords then .timeoutError
      else if (folded message).containsAny resourceWords then .resourceError
      else classifySyntax (folded ("syntax error: " ++ message)) (Utf8.decode content) := by
  have hlabel : folded "syntax error: " = "syntax error".toList ++ [':', ' '] := by decide +kernel
  have hsyntax : (folded ("syntax error: " ++ message)).containsAny syntaxWords = true := by
    rw [folded_append]
    exact containsAny_append_left (by decide +kernel) _
  unfold faultOf classificationText
  rw [classify_eq,
    containsAny_folded (by decide +kernel) hlabel (by decide +kernel),
    containsAny_folded (by decide +kernel) hlabel (by decide +kernel),
    containsAny_folded (by decide +kernel) hlabel (by decide +kernel), if_pos hsyntax]

theorem faultOf_resource (path message : String) (content : Bytes) :
    faultOf (.resource path message) content =
      if (folded message).containsAny encodingWords then .encodingError
      else if (folded message).containsAny timeoutWords then .timeoutError
      else .resourceError := by
  have hlabel : folded "resource error: " = "resource error".toList ++ [':', ' '] := by
    decide +kernel
  have hresource : (folded ("resource error: " ++ message)).containsAny resourceWords = true := by
    rw [folded_append]
    exact containsAny_append_left (by decide +kernel) _
  unfold faultOf classificationText
  rw [classify_eq,
    containsAny_folded (by decide +kernel) hlabel (by decide +kernel),
    containsAny_folded (by decide +kernel) hlabel (by decide +kernel), if_pos hresource]

theorem faultOf_encoding (path message : String) (content : Bytes) :
    faultOf (.encoding path message) content = .encodingError := by
  have hencoding : (folded ("encoding error: " ++ message)).containsAny encodingWords = true := by
    rw [folded_append]
    exact containsAny_append_left (by decide +kernel) _
  unfold faultOf classificationText
  rw [classify_eq, if_pos hencoding]

theorem faultOf_panicked (path : String) (content : Bytes) :
    faultOf (.panicked path) content = .parseError := by
  have hnone : ∀ words ∈ [encodingWords, timeoutWords, resourceWords, syntaxWords],
      ¬(folded "parser panicked").containsAny words = true := by decide +kernel
  have hparse : (folded "parser panicked").containsAny parseWords = true := by decide +kernel
  unfold faultOf classificationText
  rw [classify_eq, if_neg (hnone encodingWords (by simp)),
    if_neg (hnone timeoutWords (by simp)), if_neg (hnone resourceWords (by simp)),
    if_neg (hnone syntaxWords (by simp)), if_pos hparse]

/-! ## Times -/

theorem searchFold_of_isDigit {c : Char} (h : c.isDigit = true) : searchFold c = [c] := by
  have hbounds : 48 ≤ c.toNat ∧ c.toNat ≤ 57 := by
    simpa [Char.isDigit, UInt32.le_iff_toNat_le] using h
  have hlower : c.toLower = c := by
    refine dif_neg fun hupper => ?_
    have hlarge : 65 ≤ c.toNat := UInt32.le_iff_toNat_le.mp hupper.1
    omega
  rw [searchFold, if_neg (by omega), if_neg (by omega), hlower]

theorem folded_toString (n : Nat) : folded (toString n) = Nat.toDigits 10 n := by
  have hdigits : (Nat.toDigits 10 n).flatMap searchFold = (Nat.toDigits 10 n).flatMap ([·]) := by
    refine List.flatMap_congr fun c hc => ?_
    exact searchFold_of_isDigit (Nat.isDigit_of_mem_toDigits (by decide) (by decide) hc)
  rw [folded, Nat.toString_eq_repr, Nat.toList_repr, hdigits, List.flatMap_singleton']

/-- No number of milliseconds makes up a word that stands for an encoding. -/
theorem containsAny_time {digits : Text} (h : ∀ c ∈ digits, c.isDigit = true) :
    Text.containsAny ("timeout after ".toList ++ (digits ++ "ms".toList)) encodingWords = false := by
  -- A word with a blank holds a letter that is not there, and the others stand between the blanks.
  have hwords : ∀ word ∈ encodingWords, 'n' ∈ word.toList ∨ ' ' ∉ word.toList ∧
      ¬word.toList <:+: "timeout".toList ∧ ¬word.toList <:+: "after".toList ∧
      (word.toList.any fun c => !c.isDigit && !"ms".toList.contains c) = true := by decide +kernel
  have hrest : ∀ c, c.isDigit = false → c ∉ "ms".toList → c ∉ digits ++ "ms".toList := by
    intro c hdigit hunit hm
    rcases List.mem_append.mp hm with hm | hm
    · rw [h c hm] at hdigit
      cases hdigit
    · exact hunit hm
  rw [Bool.eq_false_iff]
  intro hfound
  obtain ⟨word, hword, hinfix⟩ := containsAny_iff.mp hfound
  rcases hwords word hword with hletter | ⟨hblank, htimeout, hafter, hother⟩
  · rcases List.mem_append.mp ( hinfix.subset hletter) with hm | hm
    · revert hm
      decide
    · exact hrest 'n' (by decide) (by decide) hm
  · obtain ⟨c, hc, hboth⟩ := List.any_eq_true.mp hother
    obtain ⟨hdigit, hunit⟩ : c.isDigit = false ∧ c ∉ "ms".toList := by simpa using hboth
    have hsplit : "timeout after ".toList ++ (digits ++ "ms".toList) =
        "timeout".toList ++ ' ' :: ("after".toList ++ ' ' :: (digits ++ "ms".toList)) := rfl
    rw [hsplit] at hinfix
    rcases Text.infix_or_infix_of_append_cons hblank hinfix with hinfix | hinfix
    · exact htimeout hinfix
    · rcases Text.infix_or_infix_of_append_cons hblank hinfix with hinfix | hinfix
      · exact hafter hinfix
      · exact hrest c hdigit hunit ( hinfix.subset hc)

theorem faultOf_timeout (path : String) (millis : Nat) (content : Bytes) :
    faultOf (.timeout path millis) content = .timeoutError := by
  have hlabel : folded "timeout after " = "timeout after ".toList := by decide +kernel
  have hunit : folded "ms" = "ms".toList := by decide +kernel
  have htext : folded ("timeout after " ++ toString millis ++ "ms") =
      "timeout after ".toList ++ (Nat.toDigits 10 millis ++ "ms".toList) := by
    rw [folded_append, folded_append, hlabel, hunit, folded_toString, List.append_assoc]
  have hnone := containsAny_time fun c (hc : c ∈ Nat.toDigits 10 millis) =>
    Nat.isDigit_of_mem_toDigits (by decide) (by decide) hc
  have htimeout : Text.containsAny
      ("timeout after ".toList ++ (Nat.toDigits 10 millis ++ "ms".toList)) timeoutWords = true :=
    containsAny_append_left (by decide +kernel) _
  unfold faultOf classificationText
  rw [classify_eq, htext, if_neg (Bool.eq_false_iff.mp hnone), if_pos htimeout]

/-! ## Errors and faults -/

namespace ParseError

/-- The faults that fit the kind of an error. Of a language without a parser any fault may be
told. -/
def fittingFaults : ParseError → List Fault
  | .badSyntax _ _ => [.bracketMismatch, .quoteMismatch, .missingSemicolon, .parseError]
  | .encoding _ _ => [.encodingError]
  | .resource _ _ => [.resourceError]
  | .timeout _ _ => [.timeoutError]
  | .panicked _ => [.parseError]
  | .grammarNotFound _ | .unsupportedLanguage _ => Fault.all

/-- What the parser itself says. -/
def parserMessage : ParseError → String
  | .badSyntax _ message | .encoding _ message | .resource _ message => message
  | _ => ""

/-- The words that are looked for before those of the error's own kind. -/
def overridingWords : ParseError → List String
  | .badSyntax _ _ => encodingWords ++ timeoutWords ++ resourceWords
  | .resource _ _ => encodingWords ++ timeoutWords
  | _ => []

end ParseError

theorem containsAny_append (text : Text) (words others : List String) :
    text.containsAny (words ++ others) = (text.containsAny words || text.containsAny others) :=
  List.any_append

theorem faultOf_badSyntax_mem_iff (path message : String) (content : Bytes) :
    faultOf (.badSyntax path message) content ∈
        [Fault.bracketMismatch, .quoteMismatch, .missingSemicolon, .parseError] ↔
      (folded message).containsAny (encodingWords ++ timeoutWords ++ resourceWords) = false := by
  rw [faultOf_badSyntax, containsAny_append, containsAny_append]
  split_ifs with hencoding htimeout hresource
  · simp [hencoding]
  · simp [htimeout]
  · simp [hresource]
  · rw [Bool.not_eq_true] at hencoding htimeout hresource
    rw [hencoding, htimeout, hresource]
    exact iff_of_true (classifySyntax_mem _ _) rfl

theorem faultOf_resource_mem_iff (path message : String) (content : Bytes) :
    faultOf (.resource path message) content ∈ [Fault.resourceError] ↔
      (folded message).containsAny (encodingWords ++ timeoutWords) = false := by
  rw [faultOf_resource, containsAny_append]
  split_ifs with hencoding htimeout
  · simp [hencoding]
  · simp [htimeout]
  · simp [hencoding, htimeout]

/-- The fault that an error is taken for fits its kind exactly if the parser's message holds no word
that is looked for first, whatever the content. -/
theorem faultOf_mem_fittingFaults_iff (error : ParseError) (content : Bytes) :
    faultOf error content ∈ error.fittingFaults ↔
      (folded error.parserMessage).containsAny error.overridingWords = false := by
  have hall : ∀ fault : Fault, fault ∈ Fault.all := by
    intro fault
    cases fault <;> decide
  cases error with
  | badSyntax path message => exact faultOf_badSyntax_mem_iff path message content
  | resource path message => exact faultOf_resource_mem_iff path message content
  | encoding path message =>
      exact iff_of_true (List.mem_singleton.mpr (faultOf_encoding path message content)) rfl
  | timeout path millis =>
      exact iff_of_true (List.mem_singleton.mpr (faultOf_timeout path millis content)) rfl
  | panicked path =>
      exact iff_of_true (List.mem_singleton.mpr (faultOf_panicked path content)) rfl
  | grammarNotFound language => exact iff_of_true (hall _) rfl
  | unsupportedLanguage language => exact iff_of_true (hall _) rfl

/-- A syntax error at a token that names an encoding is taken for an encoding error. -/
theorem faultOf_unexpected_decode :
    faultOf (.badSyntax "a.py" "Unexpected token decode at line 1") [] = .encodingError ∧
      Fault.encodingError ∉
        (ParseError.badSyntax "a.py" "Unexpected token decode at line 1").fittingFaults := by
  decide +kernel

end CodeAtlas
