import Keyring.Proofs.Content.Kinds

/-!
# The written form of records

A record is written as one JSON object without blanks. The object lists the fields that are set, in
declared order, each as a string under its name. Inside a string a character stands for itself, but
for the quote, the backslash and the control characters, which are escaped. So no text of a field
ends its string, and the object that is read back has the fields of the record and nothing else.
-/

namespace Keyring

/-! ### Strings -/

namespace Json

/-- The digits of escaped codes. -/
def hexDigits : Text := "0123456789abcdef".toList

/-- The characters that are escaped by a letter, with their letters. -/
def lettered : List (Char × Char) :=
  [('\x08', 'b'), ('\t', 't'), ('\n', 'n'), ('\x0c', 'f'), ('\r', 'r')]

/-- The escapes of the characters that cannot stand in a string as they are. A control character
without a letter is escaped by its code. -/
inductive Escape : Char → Text → Prop
  | quote : Escape '"' ['\\', '"']
  | backslash : Escape '\\' ['\\', '\\']
  | letter {c l : Char} (h : (c, l) ∈ lettered) : Escape c ['\\', l]
  | code {c high low : Char} (h : c.toNat < 0x20) (hletter : c ∉ lettered.map (·.1))
      (hhigh : hexDigits[c.toNat / 16]? = some high) (hlow : hexDigits[c.toNat % 16]? = some low) :
      Escape c ['\\', 'u', '0', '0', high, low]

/-- The spelling of a text inside a string. -/
inductive Spells : Text → Text → Prop
  | nil : Spells [] []
  | plain {c : Char} {s t : Text} (hcode : 0x20 ≤ c.toNat) (hquote : c ≠ '"')
      (hbackslash : c ≠ '\\') :
      Spells s t → Spells (c :: s) (c :: t)
  | escaped {c : Char} {e s t : Text} : Escape c e → Spells s t → Spells (c :: s) (e ++ t)

variable {c : Char} {e s t : Text}

theorem escape_of_letter : ∀ p ∈ lettered, p.1.toNat < 0x20 ∧ escape p.1 = ['\\', p.2] := by
  decide

theorem escape_of_code (h : c.toNat < 0x20) (hletter : c ∉ lettered.map (·.1)) : escape c =
    ['\\', 'u', '0', '0', hexDigits.getD (c.toNat / 16) '0',
      hexDigits.getD (c.toNat % 16) '0'] := by
  have hall : ∀ n < 0x20, Char.ofNat n ∉ lettered.map (·.1) → escape (Char.ofNat n) =
      ['\\', 'u', '0', '0', hexDigits.getD (n / 16) '0', hexDigits.getD (n % 16) '0'] := by
    decide +kernel
  have hc := hall c.toNat h
  rw [Char.ofNat_toNat] at hc
  exact hc hletter

theorem escape_iff : Escape c e ↔ (c = '"' ∨ c = '\\' ∨ c.toNat < 0x20) ∧ e = escape c := by
  constructor
  · intro h
    cases h with
    | quote => exact ⟨.inl rfl, rfl⟩
    | backslash => exact ⟨.inr (.inl rfl), rfl⟩
    | letter h =>
      obtain ⟨hlt, hescape⟩ := escape_of_letter _ h
      exact ⟨.inr (.inr hlt), hescape.symm⟩
    | code h hletter hhigh hlow =>
      refine ⟨.inr (.inr h), ?_⟩
      rw [escape_of_code h hletter, List.getD_eq_getElem?_getD, hhigh, List.getD_eq_getElem?_getD,
        hlow]
      rfl
  · rintro ⟨rfl | rfl | hlt, rfl⟩
    · exact .quote
    · exact .backslash
    · by_cases hletter : c ∈ lettered.map (·.1)
      · obtain ⟨p, hp, rfl⟩ := List.mem_map.1 hletter
        rw [(escape_of_letter p hp).2]
        exact .letter hp
      · have hdigit : ∀ k < 16, hexDigits[k]? = some (hexDigits.getD k '0') := by decide
        rw [escape_of_code hlt hletter]
        exact .code hlt hletter (hdigit _ (by omega)) (hdigit _ (by omega))

/-- A text has one spelling inside a string. -/
theorem spells_iff : Spells s t ↔ t = s.flatMap escape := by
  constructor
  · intro h
    induction h with
    | nil => rfl
    | plain hcode hquote hbackslash _ ih =>
      rw [List.flatMap_cons, escape_plain (Nat.not_lt.2 hcode) hquote hbackslash, ih]
      rfl
    | escaped he _ ih => rw [List.flatMap_cons, (escape_iff.1 he).2, ih]
  · rintro rfl
    induction s with
    | nil => exact .nil
    | cons c s ih =>
      rw [List.flatMap_cons]
      by_cases hc : c = '"' ∨ c = '\\' ∨ c.toNat < 0x20
      · exact .escaped (escape_iff.2 ⟨hc, rfl⟩) ih
      · obtain ⟨hquote, hbackslash, hcode⟩ := by simpa only [not_or] using hc
        rw [escape_plain hcode hquote hbackslash]
        exact .plain (Nat.not_lt.1 hcode) hquote hbackslash ih

end Json

/-! ### Members -/

namespace Content

/-- The members that fields are written as: one for each field that is set, in the order of the
fields. -/
inductive Lists : List (String × Option Text) → List Text → Prop
  | nil : Lists [] []
  | unset {name : String} {fs : List (String × Option Text)} {ms : List Text} :
      Lists fs ms → Lists ((name, none) :: fs) ms
  | set {name : String} {value spelling : Text} {fs : List (String × Option Text)}
      {ms : List Text} :
      Json.Spells value spelling → Lists fs ms →
      Lists ((name, some value) :: fs)
        (('"' :: name.toList ++ '"' :: ':' :: '"' :: spelling ++ ['"']) :: ms)

/-- The written form of a record: its members in braces, with commas between them. -/
def Written (c : Content) (t : Text) : Prop :=
  ∃ ms, Lists c.fields ms ∧ t = '{' :: Text.joinWith ',' ms ++ ['}']

/-- A name that is spelled by itself needs no escapes. -/
theorem member_eq {name : String} (h : name.toList.flatMap Json.escape = name.toList)
    (value : Text) :
    Json.member (name.toList, value) =
      '"' :: name.toList ++ '"' :: ':' :: '"' :: value.flatMap Json.escape ++ ['"'] := by
  simp only [Json.member, Json.string, h, List.cons_append, List.append_assoc, List.nil_append]

/-- The members of an object are the fields that are set, in declared order. -/
theorem lists_iff {fs : List (String × Option Text)}
    (h : ∀ f ∈ fs, f.1.toList.flatMap Json.escape = f.1.toList) {ms : List Text} :
    Lists fs ms ↔ ms = (fs.filterMap fun f => f.2.map (f.1.toList, ·)).map Json.member := by
  constructor
  · intro hlists
    induction hlists with
    | nil => rfl
    | unset _ ih => exact ih (List.forall_mem_cons.1 h).2
    | set hspells _ ih =>
      obtain ⟨hname, hrest⟩ := List.forall_mem_cons.1 h
      rw [Json.spells_iff.1 hspells, ← member_eq hname, ih hrest]
      rfl
  · rintro rfl
    induction fs with
    | nil => exact .nil
    | cons f fs ih =>
      obtain ⟨hname, hrest⟩ := List.forall_mem_cons.1 h
      obtain ⟨name, value⟩ := f
      cases value with
      | none => exact .unset (ih hrest)
      | some value =>
        have hspells : Json.Spells value (value.flatMap Json.escape) := Json.spells_iff.2 rfl
        have hset : Lists ((name, some value) :: fs) _ := .set hspells (ih hrest)
        rwa [← member_eq hname value] at hset

theorem escape_name (c : Content) :
    ∀ f ∈ c.fields, f.1.toList.flatMap Json.escape = f.1.toList := by
  have hnames : ∀ n ∈ FundsRequest.names ++ PaymentRecord.names,
      n.toList.flatMap Json.escape = n.toList := by
    decide +kernel
  intro f hf
  have hmem : f.1 ∈ c.fields.map (·.1) := List.mem_map_of_mem hf
  refine hnames f.1 (List.mem_append.2 ?_)
  cases c with
  | request r => exact .inl hmem
  | payment r => exact .inr hmem

/-- A record has one written form. -/
theorem written_iff {c : Content} {t : Text} : c.Written t ↔ t = c.toText := by
  simp only [Written, lists_iff c.escape_name, exists_eq_left]
  rfl

/-! ### Records and their bytes -/

theorem keys_entriesOf (fs : List (String × Option Text)) :
    (entriesOf fs).map (·.1) = (fs.filter (·.2.isSome)).map fun f => .text f.1.toList := by
  induction fs with
  | nil => rfl
  | cons f fs ih =>
    obtain ⟨name, value⟩ := f
    cases value with
    | none => exact ih
    | some value => exact congrArg (Scalar.text name.toList :: ·) ih

theorem read?_toText (c : Content) : Json.read? c.toText = some (.map (entriesOf c.fields)) := by
  rw [toText, Json.read?_object, map_entry_members,
    Entries.ofList_eq_self (nodup_entriesOf c.nodup_names)]

/-- Different records have different bytes. -/
theorem eq_of_toBytes {c c' : Content} (h : c'.toBytes = c.toBytes) : c' = c := by
  have hread : ofBytes? c'.kind c.toBytes = some c' := h ▸ c'.ofBytes?_toBytes
  have hkind : c'.kind = c.kind ∨ c'.kind = c.kind.other := by
    cases c'.kind <;> cases c.kind <;> decide
  rcases hkind with hsame | hother
  · rw [hsame, ofBytes?_toBytes] at hread
    exact (Option.some.inj hread).symm
  · rw [hother, ofBytes?_other] at hread
    exact (nomatch hread)

/-- The bytes of a record are the one text in its written form, in UTF-8. As a document, this text
has an entry for each field that is set, in declared order, with the value of the field, and no
others. So the bytes are read as the record that was written, and no other record of either kind has
the same bytes. -/
theorem bytes_determine_record (c : Content) :
    (∃ (t : Text) (es : Entries), (∀ u, c.Written u ↔ u = t) ∧ c.toBytes = Text.Utf8.encode t ∧
      Json.read? t = some (.map es) ∧
      es.map (·.1) = ((c.fields.filter (·.2.isSome)).map fun f => .text f.1.toList) ∧
      ∀ f ∈ c.fields, es.get? (.text f.1.toList) = f.2.map .text) ∧
    ofBytes? c.kind c.toBytes = some c ∧
    ∀ c' : Content, c'.toBytes = c.toBytes → c' = c := by
  refine ⟨⟨c.toText, entriesOf c.fields, fun u => written_iff, rfl, c.read?_toText,
    keys_entriesOf _, ?_⟩, c.ofBytes?_toBytes, fun c' => eq_of_toBytes⟩
  intro f hf
  exact get?_entriesOf c.nodup_names hf

/-- A request whose memo is made to look like a further field, with a NUL, a DEL and a line
separator behind it. -/
def forgedMemo (hash : Option Text) : Content :=
  .request ⟨"ann@fio".toList, ['1'], "FIO".toList, "FIO".toList,
    some ("\",\"amount\":\"9\\".toList ++ ['\x00', '\x7f', '\u2028']), hash, none⟩

/-- The amount stays what it is, and an empty hash is not taken for none. -/
theorem bytes_of_forgedMemo :
    ofBytes? .request (forgedMemo (some [])).toBytes = some (forgedMemo (some [])) ∧
    (∃ (t : Text) (es : Entries), (forgedMemo (some [])).toBytes = Text.Utf8.encode t ∧
      Json.read? t = some (.map es) ∧ es.get? (.text "amount".toList) = some (.text ['1'])) ∧
    (forgedMemo none).toBytes ≠ (forgedMemo (some [])).toBytes := by
  obtain ⟨⟨t, es, -, hbytes, hread, -, hget⟩, hback, hinj⟩ :=
    bytes_determine_record (forgedMemo (some []))
  have hamount : ("amount", some ['1']) ∈ (forgedMemo (some [])).fields :=
    List.mem_cons_of_mem _ List.mem_cons_self
  refine ⟨hback, ⟨t, es, hbytes, hread, hget _ hamount⟩, fun h => ?_⟩
  exact absurd (hinj _ h) (by decide)

end Content

end Keyring
