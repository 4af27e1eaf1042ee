import CodeAtlas.Cache.Scope
import CodeAtlas.Json
import CodeAtlas.Proofs.Text.Utf8
import Mathlib.Data.List.Basic

/-! Keys of results. Written digests and texts give back what they were written for, so that two
requests in one scope share a key only if they are for the same file with the same content, as long
as no digest collides. -/

namespace CodeAtlas

/-! ## Written digests -/

namespace Digest

/-- The number that hexadecimal digits stand for. -/
def ofHex (digits : Text) : Nat :=
  digits.foldl (fun n c => 16 * n + (Json.hexValue? c).getD 0) 0

theorem hexValue?_digitChar {d : Nat} (hd : d < 16) : Json.hexValue? d.digitChar = some d := by
  revert d
  decide

theorem ofHex_append_singleton (digits : Text) (c : Char) :
    ofHex (digits ++ [c]) = 16 * ofHex digits + (Json.hexValue? c).getD 0 := by
  simp [ofHex]

theorem ofHex_zeros (count : Nat) (digits : Text) :
    ofHex (List.replicate count '0' ++ digits) = ofHex digits := by
  induction count with
  | zero => rfl
  | succ count ih =>
      rw [List.replicate_succ, List.cons_append]
      exact ih

theorem ofHex_toDigits (n : Nat) : ofHex (Nat.toDigits 16 n) = n := by
  induction n using Nat.strongRecOn with
  | ind n ih =>
      rw [Nat.toDigits_eq_if (by decide)]
      by_cases hn : n < 16
      · rw [if_pos hn]
        simp [ofHex, hexValue?_digitChar hn]
      · rw [if_neg hn, ofHex_append_singleton, ih (n / 16) (by omega),
          hexValue?_digitChar (Nat.mod_lt n (by decide)), Option.getD_some]
        omega

theorem ofHex_hex16 (word : UInt64) : ofHex (hex16 word).toList = word.toNat := by
  simp only [hex16, String.toList_ofList, ofHex_zeros, ofHex_toDigits]

theorem hex16_injective : Function.Injective hex16 := by
  intro a b h
  apply UInt64.toNat_inj.mp
  rw [← ofHex_hex16 a, ← ofHex_hex16 b, h]

theorem length_hex16 (word : UInt64) : (hex16 word).toList.length = 16 := by
  have hbound : (Nat.toDigits 16 word.toNat).length ≤ 16 := by
    apply (Nat.length_toDigits_le_iff (by decide) (by decide)).mpr
    exact word.toNat_lt
  simp only [hex16, String.toList_ofList, List.length_append, List.length_replicate]
  omega

theorem mem_toDigits {n : Nat} {c : Char} (h : c ∈ Nat.toDigits 16 n) :
    c ∈ "0123456789abcdef".toList := by
  have hdigit : ∀ d < 16, d.digitChar ∈ "0123456789abcdef".toList := by decide
  induction n using Nat.strongRecOn with
  | ind n ih =>
      rw [Nat.toDigits_eq_if (by decide)] at h
      split at h
      · rename_i hn
        rw [List.mem_singleton.mp h]
        exact hdigit n hn
      · rcases List.mem_append.mp h with h | h
        · exact ih (n / 16) (by omega) h
        · rw [List.mem_singleton.mp h]
          exact hdigit _ (Nat.mod_lt n (by decide))

theorem mem_hex16 {word : UInt64} {c : Char} (h : c ∈ (hex16 word).toList) :
    c ∈ "0123456789abcdef".toList := by
  rw [hex16, String.toList_ofList] at h
  rcases List.mem_append.mp h with h | h
  · rw [(List.mem_replicate.mp h).2]
    decide
  · exact mem_toDigits h

theorem Wide.hex_injective : Function.Injective Wide.hex := by
  intro a b h
  have hlists : (hex16 a.high).toList ++ (hex16 a.low).toList =
      (hex16 b.high).toList ++ (hex16 b.low).toList := by
    simpa only [Wide.hex, String.toList_append] using congrArg String.toList h
  obtain ⟨hhigh, hlow⟩ := List.append_inj hlists (by rw [length_hex16, length_hex16])
  exact congrArg₂ Wide.mk (hex16_injective (String.toList_inj.mp hhigh))
    (hex16_injective (String.toList_inj.mp hlow))

end Digest

/-! ## Keys -/

namespace Scope

/-- What a result is kept for: a file and its content. -/
abbrev Request := String × Bytes

variable (scope : Scope)

/-- The bytes that the key of a request is a digest of. -/
def keyBytes (request : Request) : Bytes :=
  Utf8.encode (scope.material request.1 request.2)

/-- In one scope the file and the digest of the content can be read off the material. -/
theorem material_inj {file file' : String} {content content' : Bytes}
    (h : scope.material file content = scope.material file' content') :
    file = file' ∧ Digest.narrow content = Digest.narrow content' := by
  have hlength : (ended (Digest.hex16 (Digest.narrow content))).length =
      (ended (Digest.hex16 (Digest.narrow content'))).length := by
    simp [ended, Digest.length_hex16]
  simp only [material, List.flatMap_cons, List.flatMap_nil, List.append_nil] at h
  obtain ⟨hfile, hrest⟩ := List.append_inj' h (by simp [hlength])
  refine ⟨String.toList_inj.mp (List.append_cancel_right hfile), ?_⟩
  have hdigest := List.append_cancel_left (List.append_cancel_left (List.append_cancel_left hrest))
  exact Digest.hex16_injective (String.toList_inj.mp (List.append_cancel_right hdigest))

/-- No two contents and no two keys of some requests have the same digest by accident. -/
structure CollisionFree (requests : List Request) : Prop where
  narrow : ∀ a ∈ requests, ∀ b ∈ requests, Digest.narrow a.2 = Digest.narrow b.2 → a.2 = b.2
  wide : ∀ a ∈ requests, ∀ b ∈ requests,
    Digest.wide (scope.keyBytes a) = Digest.wide (scope.keyBytes b) →
      scope.keyBytes a = scope.keyBytes b

variable {scope} in
theorem CollisionFree.eq_of_key_eq {requests : List Request} (h : scope.CollisionFree requests)
    {a b : Request} (ha : a ∈ requests) (hb : b ∈ requests)
    (hkey : scope.key a.1 a.2 = scope.key b.1 b.2) : a = b := by
  have hbytes := h.wide a ha b hb (Digest.Wide.hex_injective hkey)
  obtain ⟨hfile, hdigest⟩ := scope.material_inj (Utf8.encode_injective hbytes)
  exact Prod.ext hfile (h.narrow a ha b hb hdigest)

/-! ## Fields with marked ends -/

/-- The text does not hold the mark that stands behind each field. -/
def Markless (text : String) : Prop := Char.ofNat 0 ∉ text.toList

instance (text : String) : Decidable (Markless text) :=
  inferInstanceAs (Decidable (_ ∉ _))

/-- A field without the mark reaches up to the first one. -/
theorem ended_append_inj {field field' : String} (h : Markless field) (h' : Markless field')
    {rest rest' : Text} (he : ended field ++ rest = ended field' ++ rest') :
    field = field' ∧ rest = rest' := by
  have hread : ∀ {text : String}, Markless text → ∀ rest : Text,
      (ended text ++ rest).takeWhile (· != Char.ofNat 0) = text.toList := by
    intro text hm rest
    rw [ended, List.append_assoc, List.takeWhile_append_of_pos]
    · simp
    · intro c hc
      simpa using ne_of_mem_of_not_mem hc hm
  have hfields : field.toList = field'.toList := by
    rw [← hread h rest, ← hread h' rest', he]
  obtain rfl := String.toList_inj.mp hfields
  exact ⟨rfl, List.append_cancel_left he⟩

theorem flatMap_ended_append_inj {fields fields' : List String} {rest rest' : Text}
    (hlength : fields.length = fields'.length) (h : ∀ field ∈ fields, Markless field)
    (h' : ∀ field ∈ fields', Markless field)
    (he : fields.flatMap ended ++ rest = fields'.flatMap ended ++ rest') :
    fields = fields' ∧ rest = rest' := by
  induction fields generalizing fields' with
  | nil =>
      obtain rfl := List.length_eq_zero_iff.mp hlength.symm
      exact ⟨rfl, he⟩
  | cons field fields ih =>
      cases fields' with
      | nil => cases hlength
      | cons field' fields' =>
          obtain ⟨hfirst, hlater⟩ := List.forall_mem_cons.mp h
          obtain ⟨hfirst', hlater'⟩ := List.forall_mem_cons.mp h'
          rw [List.flatMap_cons, List.flatMap_cons, List.append_assoc, List.append_assoc] at he
          obtain ⟨rfl, hrests⟩ := ended_append_inj hfirst hfirst' he
          obtain ⟨rfl, hrest⟩ := ih (Nat.succ.inj hlength) hlater hlater' hrests
          exact ⟨rfl, hrest⟩

end Scope

/-! ## Keys across scopes -/

/-- What the key of a result is made of: a file and its content, in a scope. -/
structure Origin where
  scope : Scope
  file : String
  content : Bytes

namespace Origin

def key (origin : Origin) : String := origin.scope.key origin.file origin.content

/-- The texts of the key's material, but for the digest of the content. -/
def fields (origin : Origin) : List String :=
  [origin.file, origin.scope.root, origin.scope.branch, origin.scope.commit.getD ""]

def Plain (origin : Origin) : Prop := ∀ field ∈ origin.fields, Scope.Markless field

instance (origin : Origin) : Decidable origin.Plain :=
  inferInstanceAs (Decidable (∀ _ ∈ _, _))

def keyBytes (origin : Origin) : Bytes := origin.scope.keyBytes (origin.file, origin.content)

/-- Neither the contents of two origins nor the materials of their keys have the same digest by
accident. -/
structure ToldApart (a b : Origin) : Prop where
  narrow : Digest.narrow a.content = Digest.narrow b.content → a.content = b.content
  wide : Digest.wide a.keyBytes = Digest.wide b.keyBytes → a.keyBytes = b.keyBytes

theorem material_eq (origin : Origin) :
    origin.scope.material origin.file origin.content =
      origin.fields.flatMap Scope.ended ++
        Scope.ended (Digest.hex16 (Digest.narrow origin.content)) := by
  simp [Scope.material, fields]

/-- The texts and the digest of the content can be read off the material. -/
theorem material_inj {a b : Origin} (ha : a.Plain) (hb : b.Plain)
    (h : a.scope.material a.file a.content = b.scope.material b.file b.content) :
    a.fields = b.fields ∧ Digest.narrow a.content = Digest.narrow b.content := by
  rw [material_eq, material_eq] at h
  have hlength : a.fields.length = b.fields.length := rfl
  obtain ⟨hfields, hdigest⟩ := Scope.flatMap_ended_append_inj hlength ha hb h
  exact ⟨hfields,
    Digest.hex16_injective (String.toList_inj.mp (List.append_cancel_right hdigest))⟩

/-- A key tells the file, the root, the branch and the content. Of the commit it tells the text, in
which no commit and an empty one are the same. -/
theorem key_eq_iff {a b : Origin} (ha : a.Plain) (hb : b.Plain) (h : a.ToldApart b) :
    a.key = b.key ↔
      a.file = b.file ∧ a.scope.root = b.scope.root ∧ a.scope.branch = b.scope.branch ∧
        a.scope.commit.getD "" = b.scope.commit.getD "" ∧ a.content = b.content := by
  constructor
  · intro hkey
    have hbytes := h.wide (Digest.Wide.hex_injective hkey)
    obtain ⟨hfields, hdigest⟩ := material_inj ha hb (Utf8.encode_injective hbytes)
    have hcontent := h.narrow hdigest
    simp only [fields, List.cons.injEq, and_true] at hfields
    obtain ⟨hfile, hroot, hbranch, hcommit⟩ := hfields
    exact ⟨hfile, hroot, hbranch, hcommit, hcontent⟩
  · rintro ⟨hfile, hroot, hbranch, hcommit, hcontent⟩
    simp only [key, Scope.key, Scope.material, hfile, hroot, hbranch, hcommit, hcontent]

/-- A result for a file on its branch. -/
def onBranch : Origin := ⟨⟨"/repo", "main", none⟩, "a.py", []⟩

/-- A result for the same file at a commit. -/
def atCommit (commit : String) : Origin := ⟨⟨"/repo", "main", some commit⟩, "a.py", []⟩

theorem toldApart_atCommit : onBranch.ToldApart (atCommit "abc123") where
  narrow _ := rfl
  wide := by decide +kernel

theorem key_onBranch_ne_atCommit :
    onBranch.Plain ∧ (atCommit "abc123").Plain ∧ onBranch.ToldApart (atCommit "abc123") ∧
      onBranch.key ≠ (atCommit "abc123").key := by
  have hbranch : onBranch.Plain := by decide +kernel
  have hcommit : (atCommit "abc123").Plain := by decide +kernel
  refine ⟨hbranch, hcommit, toldApart_atCommit, ?_⟩
  rw [ne_eq, key_eq_iff hbranch hcommit toldApart_atCommit]
  decide

/-- The key of a result on a branch is found again at an empty commit. -/
theorem empty_commit_found :
    onBranch.Plain ∧ (atCommit "").Plain ∧ onBranch.ToldApart (atCommit "") ∧
      onBranch.key = (atCommit "").key ∧ onBranch.scope.commit ≠ (atCommit "").scope.commit := by
  refine ⟨by decide +kernel, by decide +kernel, ⟨fun _ => rfl, fun _ => rfl⟩, rfl, ?_⟩
  decide

end Origin

end CodeAtlas
