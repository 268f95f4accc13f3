import Mathlib.Data.List.DropRight
import Transect.Proofs.Json.Scan

/-!
# Written values are read

The reader gives back the value that a text is written for, with all of its members in their order.
The induction is on the depth. A series of items or members has at most as many parts as it has
characters, so the fuel lasts.
-/

namespace Transect

/-! ## Drafts without faults -/

namespace Draft

mutual

/-- The draft of a value that has been read to its end. -/
def ofJson : Json → Draft
  | .null => .null
  | .bool b => .bool b
  | .number literal => .number literal
  | .string s => .string s
  | .array items => .array (ofItems items) none
  | .object members => .object (ofMembers members) none

def ofItems : List Json → List Draft
  | [] => []
  | item :: rest => ofJson item :: ofItems rest

def ofMembers : List (String × Json) → List (String × Draft)
  | [] => []
  | (name, value) :: rest => (name, ofJson value) :: ofMembers rest

end

theorem ofItems_eq (items : List Json) : ofItems items = items.map ofJson := by
  induction items with
  | nil => rfl
  | cons item rest ih => rw [ofItems, ih, List.map_cons]

theorem ofMembers_eq (members : List (String × Json)) :
    ofMembers members = members.map fun m => (m.1, ofJson m.2) := by
  induction members with
  | nil => rfl
  | cons member rest ih =>
    obtain ⟨name, value⟩ := member
    rw [ofMembers, ih, List.map_cons]

mutual

theorem complete_ofJson : ∀ v : Json, (ofJson v).complete = .ok v
  | .null | .bool _ | .number _ | .string _ => rfl
  | .array items => by
    rw [ofJson, complete, completeItems_ofItems]
    rfl
  | .object members => by
    rw [ofJson, complete, completeMembers_ofMembers]
    rfl

theorem completeItems_ofItems : ∀ items : List Json, completeItems (ofItems items) = .ok items
  | [] => rfl
  | item :: rest => by
    rw [ofItems, completeItems, complete_ofJson, completeItems_ofItems]
    rfl

theorem completeMembers_ofMembers :
    ∀ members : List (String × Json), completeMembers (ofMembers members) = .ok members
  | [] => rfl
  | (name, value) :: rest => by
    rw [ofMembers, completeMembers, complete_ofJson, completeMembers_ofMembers]
    rfl

end

theorem isBroken_ofJson (v : Json) : (ofJson v).isBroken = false := by
  cases v <;> rfl

end Draft

namespace Json

variable {cs ds : List Char} {v : Json} {bs rest : Bytes} {fuel depth n : ℕ}
  {inner : Json → List Char → Prop}

/-! ## Values -/

/-- The text is read as the value, whatever follows it. -/
def Reads (value : ValueReader) (cs : List Char) (v : Json) : Prop :=
  ∀ rest, EndsNumber rest → value (utf8 cs ++ rest) = (.ofJson v, rest)

/-- The text is read as the value, and nothing but blanks of it may be left. -/
def ReadsPadded (value : ValueReader) (cs : List Char) (v : Json) : Prop :=
  ∀ rest, EndsNumber rest →
    ∃ bs, value (utf8 cs ++ rest) = (.ofJson v, bs) ∧ skipSpace bs = skipSpace rest

theorem endsNumber_cons {b : UInt8} (h : goesOn b = false) (rest : Bytes) :
    EndsNumber (b :: rest) := by
  rintro b ⟨⟩
  exact h

theorem endsNumber_blank (h : BlankText cs) (hrest : EndsNumber rest) :
    EndsNumber (utf8 cs ++ rest) := by
  have hblank : ∀ c ∈ cs, goesOn (byte c) = false := h.forall rfl rfl rfl rfl
  rw [utf8_ascii h.ascii]
  cases cs with
  | nil => exact hrest
  | cons c cs => exact endsNumber_cons (hblank c List.mem_cons_self) _

theorem readValue_congr (h : skipSpace bs = skipSpace rest) (fuel depth : ℕ) :
    readValue fuel depth bs = readValue fuel depth rest := by
  rw [readValue.eq_def, readValue.eq_def]
  simp only [h]

theorem readValue_skipSpace (fuel depth : ℕ) (bs : Bytes) :
    readValue fuel depth (skipSpace bs) = readValue fuel depth bs :=
  readValue_congr (List.dropWhile_idempotent _ _) fuel depth

theorem reads_scalar (h : ScalarText v cs) (fuel depth : ℕ) :
    Reads (readValue fuel depth) cs v := by
  intro rest hrest
  rw [readValue.eq_def]
  cases h with
  | nullWord => exact readWord_append .null ['u', 'l', 'l'] rest
  | trueWord => exact readWord_append (.bool true) ['r', 'u', 'e'] rest
  | falseWord => exact readWord_append (.bool false) ['a', 'l', 's', 'e'] rest
  | string h =>
    obtain ⟨bs, hcs, hread⟩ := readString_append h rest
    have hskip : skipSpace (Byte.quote :: (bs ++ rest)) = Byte.quote :: (bs ++ rest) :=
      skipSpace_cons rfl _
    rw [hcs, List.cons_append]
    simp only [hskip, hread]
    rfl
  | number h hfinite =>
    obtain ⟨b, bs, hbs, hb⟩ := h.exists_cons
    have hnumber := readNumber_append h hfinite hrest
    rw [hbs] at hnumber ⊢
    have hne {w : UInt8} (hminus : byte '-' ≠ w) (hdigit : isDigit w = false) : b ≠ w := by
      rcases hb with rfl | hb
      · exact hminus
      · exact ne_of_isDigit hb hdigit
    have hspace : isSpace b = false := by
      simp only [isSpace, Bool.or_eq_false_iff, beq_eq_false_iff_ne]
      exact ⟨⟨⟨hne (by decide) rfl, hne (by decide) rfl⟩, hne (by decide) rfl⟩,
        hne (by decide) rfl⟩
    simp only [List.cons_append, skipSpace_cons hspace]
    rw [if_neg (hne (by decide) rfl), if_neg (hne (by decide) rfl),
      if_neg (hne (by decide) rfl), if_neg (hne (by decide) rfl), if_pos hb]
    exact hnumber

theorem reads_padded (h : PaddedText inner v cs)
    (hread : ∀ ds, inner v ds → ds.length ≤ cs.length → Reads (readValue fuel depth) ds v) :
    ReadsPadded (readValue fuel depth) cs v := by
  obtain ⟨hbefore, hinner, hafter⟩ := h
  rename_i before ds after
  intro rest hrest
  refine ⟨utf8 after ++ rest, ?_, skipSpace_blank hafter rest⟩
  have hskip := skipSpace_blank hbefore (utf8 ds ++ (utf8 after ++ rest))
  rw [utf8_append, utf8_append, List.append_assoc, List.append_assoc, readValue_congr hskip]
  have hshort : ds.length ≤ (before ++ ds ++ after).length := by
    simp only [List.length_append]
    omega
  exact hread ds hinner hshort _ (endsNumber_blank hafter hrest)

/-- The values that are not longer than `n` are read. -/
def ReadsUpTo (fuel depth : ℕ) (inner : Json → List Char → Prop) (n : ℕ) : Prop :=
  ∀ v ds, PaddedText inner v ds → ds.length ≤ n → ReadsPadded (readValue fuel depth) ds v

theorem ReadsUpTo.mono {m : ℕ} (h : ReadsUpTo fuel depth inner n) (hle : m ≤ n) :
    ReadsUpTo fuel depth inner m := fun v ds hds hshort => h v ds hds (hshort.trans hle)

/-! ## Arrays -/

theorem readValue_closing (h : skipSpace bs = Byte.closingBracket :: rest) (fuel depth : ℕ) :
    readValue fuel depth bs = (.broken .malformed, []) := by
  rw [readValue.eq_def]
  simp only [h]
  rfl

theorem readValue_nil (h : skipSpace bs = []) (fuel depth : ℕ) :
    readValue fuel depth bs = (.broken .unfinished, []) := by
  rw [readValue.eq_def]
  simp only [h]

theorem readItems_last {value : ValueReader} {item : Draft} {done : List Draft} {after : Bytes}
    (hvalue : value bs = (item, after)) (hitem : item.isBroken = false)
    (hskip : skipSpace after = Byte.closingBracket :: rest) :
    readItems value (n + 1) done bs = (.array (item :: done).reverse none, rest) := by
  simp only [readItems, hvalue, hitem, hskip]
  rfl

theorem readItems_more {value : ValueReader} {item : Draft} {done : List Draft} {after : Bytes}
    (hvalue : value bs = (item, after)) (hitem : item.isBroken = false)
    (hskip : skipSpace after = Byte.comma :: rest)
    (hopen : ∀ tail, skipSpace rest ≠ Byte.closingBracket :: tail) :
    readItems value (n + 1) done bs = readItems value n (item :: done) (skipSpace rest) := by
  simp only [readItems, hvalue, hitem, hskip]
  rw [if_neg Bool.false_ne_true]
  -- The byte is a comma, so only the third case is possible.
  split
  case h_3 =>
    rename_i heq
    cases heq
    split
    · rename_i hclosing
      exact absurd hclosing (hopen _)
    · rfl
  case h_4 =>
    rename_i hcomma
    exact (hcomma rest rfl).elim
  all_goals
    rename_i heq
    cases heq

/-- A value does not start with a bracket that closes. -/
theorem exists_cons_of_readValue (h : readValue fuel depth bs = (.ofJson v, rest)) :
    ∃ b tail, skipSpace bs = b :: tail ∧ b ≠ Byte.closingBracket := by
  have hbroken (fault : JsonFault) : readValue fuel depth bs ≠ (.broken fault, []) := by
    intro heq
    have hv := Draft.isBroken_ofJson v
    rw [← (Prod.mk.inj (heq.symm.trans h)).1] at hv
    cases hv
  cases hskip : skipSpace bs with
  | nil => exact absurd (readValue_nil hskip fuel depth) (hbroken _)
  | cons b tail =>
    refine ⟨b, tail, rfl, ?_⟩
    rintro rfl
    exact hbroken _ (readValue_closing hskip fuel depth)

/-- A series of items is not taken for the end of an array. -/
theorem opens_series {items : List Json} (h : SeriesText (PaddedText inner) items cs)
    (hread : ReadsUpTo fuel depth inner cs.length) (rest : Bytes) :
    ∃ b bs, skipSpace (utf8 cs ++ Byte.closingBracket :: rest) = b :: bs ∧
      b ≠ Byte.closingBracket := by
  cases h with
  | last h =>
    have hend : EndsNumber (Byte.closingBracket :: rest) := endsNumber_cons rfl rest
    obtain ⟨tail, hvalue, -⟩ := hread _ _ h le_rfl _ hend
    exact exists_cons_of_readValue hvalue
  | @more v items cs ds h hrest =>
    have hcomma : EndsNumber (Byte.comma :: (utf8 ds ++ Byte.closingBracket :: rest)) :=
      endsNumber_cons rfl _
    obtain ⟨tail, hvalue, -⟩ := hread _ _ h (by simp) _ hcomma
    rw [utf8_append, List.append_assoc]
    exact exists_cons_of_readValue hvalue

theorem readItems_series {items : List Json} (h : SeriesText (PaddedText inner) items cs)
    (hread : ReadsUpTo fuel depth inner cs.length) (hn : cs.length < n) (done : List Draft)
    (rest : Bytes) :
    readItems (readValue fuel depth) n done
        (skipSpace (utf8 cs ++ Byte.closingBracket :: rest)) =
      (.array (done.reverse ++ items.map .ofJson) none, rest) := by
  induction h generalizing n done with
  | @last v cs h =>
    obtain ⟨n, rfl⟩ := Nat.exists_eq_add_of_lt hn
    have hend : EndsNumber (Byte.closingBracket :: rest) := endsNumber_cons rfl rest
    obtain ⟨tail, hvalue, hskip⟩ := hread v cs h le_rfl _ hend
    rw [← readValue_skipSpace] at hvalue
    rw [readItems_last hvalue (Draft.isBroken_ofJson v) hskip]
    simp
  | @more v items cs ds h hrest ih =>
    have hlength : (cs ++ ',' :: ds).length = cs.length + (ds.length + 1) := by simp
    obtain ⟨n, rfl⟩ : ∃ k, n = k + 1 := Nat.exists_eq_add_of_le' (by omega)
    have hrest' : ReadsUpTo fuel depth inner ds.length := hread.mono (by omega)
    have hcomma : EndsNumber (Byte.comma :: (utf8 ds ++ Byte.closingBracket :: rest)) :=
      endsNumber_cons rfl _
    obtain ⟨tail, hvalue, hskip⟩ := hread v cs h (by omega) _ hcomma
    rw [← readValue_skipSpace] at hvalue
    obtain ⟨b, bs, hopen, hb⟩ := opens_series hrest hrest' rest
    have hmore := ih hrest' (show ds.length < n by omega) (.ofJson v :: done)
    rw [utf8_append, List.append_assoc]
    refine (readItems_more hvalue (Draft.isBroken_ofJson v) hskip ?_).trans ?_
    · rintro tail' heq
      rw [hopen] at heq
      exact hb (List.cons.inj heq).1
    · rw [hmore]
      simp

theorem reads_array {items : List Json} (h : SeriesText (PaddedText inner) items cs)
    (hread : ReadsUpTo fuel depth inner cs.length) (hfuel : cs.length < fuel) (rest : Bytes) :
    readArray (readValue fuel depth) fuel (utf8 cs ++ Byte.closingBracket :: rest) =
      (.ofJson (.array items), rest) := by
  obtain ⟨b, bs, hopen, hb⟩ := opens_series h hread rest
  have hitems := readItems_series h hread hfuel [] rest
  rw [Draft.ofJson, Draft.ofItems_eq, readArray]
  rw [hopen] at hitems ⊢
  split
  · rename_i heq
    cases heq
  · rename_i heq
    exact absurd (List.cons.inj heq).1 hb
  · exact hitems

/-! ## Objects -/

theorem readMembers_last {value : ValueReader} {item : Draft} {name : String}
    {done : List (String × Draft)} {tail after : Bytes} (hname : readString bs = .ok (name, tail))
    (hvalue : readMemberValue value tail = (item, after)) (hitem : item.isBroken = false)
    (hskip : skipSpace after = Byte.closingBrace :: rest) :
    readMembers value (n + 1) done (Byte.quote :: bs) =
      (.object ((name, item) :: done).reverse none, rest) := by
  change readMembers value (n + 1) done (⟨34#8⟩ :: bs) = _
  rw [readMembers.eq_def]
  simp only [hname, hvalue, hitem, hskip]
  rfl

theorem readMembers_more {value : ValueReader} {item : Draft} {name : String}
    {done : List (String × Draft)} {tail after : Bytes} (hname : readString bs = .ok (name, tail))
    (hvalue : readMemberValue value tail = (item, after)) (hitem : item.isBroken = false)
    (hskip : skipSpace after = Byte.comma :: rest) :
    readMembers value (n + 1) done (Byte.quote :: bs) =
      readMembers value n ((name, item) :: done) (skipSpace rest) := by
  change readMembers value (n + 1) done (⟨34#8⟩ :: bs) = _
  rw [readMembers.eq_def]
  simp only [hname, hvalue, hitem, hskip]
  rfl

/-- The name and the value of a member are read one after the other. -/
theorem reads_member {member : String × Json} (h : MemberText inner member cs)
    (hread : ReadsUpTo fuel depth inner cs.length) (hrest : EndsNumber rest) :
    ∃ bs tail after, skipSpace (utf8 cs ++ rest) = Byte.quote :: bs ∧
      readString bs = .ok (member.1, tail) ∧
      readMemberValue (readValue fuel depth) tail = (.ofJson member.2, after) ∧
      skipSpace after = skipSpace rest := by
  obtain ⟨hbefore, hname, hafter, hvalue⟩ := h
  rename_i name v before text after ds
  have hshort : ds.length ≤ (before ++ text ++ after ++ ':' :: ds).length := by
    simp only [List.length_append, List.length_cons]
    omega
  obtain ⟨tail, hv, hskip⟩ := hread v ds hvalue hshort rest hrest
  obtain ⟨bs, hbs, hstring⟩ :=
    readString_append hname (utf8 after ++ Byte.colon :: (utf8 ds ++ rest))
  have hcolon : skipSpace (Byte.colon :: (utf8 ds ++ rest)) = Byte.colon :: (utf8 ds ++ rest) :=
    skipSpace_cons rfl _
  refine ⟨_, _, tail, ?_, hstring, ?_, hskip⟩
  · have hutf8 : utf8 (before ++ text ++ after ++ ':' :: ds) ++ rest =
        utf8 before ++ (utf8 text ++ (utf8 after ++ Byte.colon :: (utf8 ds ++ rest))) := by
      simp only [utf8_append, List.append_assoc]
      rfl
    rw [hutf8, skipSpace_blank hbefore, hbs, List.cons_append]
    exact skipSpace_cons rfl _
  · rw [readMemberValue, skipSpace_blank hafter, hcolon]
    exact hv

theorem readMembers_series {members : List (String × Json)}
    (h : SeriesText (MemberText inner) members cs)
    (hread : ReadsUpTo fuel depth inner cs.length) (hn : cs.length < n)
    (done : List (String × Draft)) (rest : Bytes) :
    readMembers (readValue fuel depth) n done
        (skipSpace (utf8 cs ++ Byte.closingBrace :: rest)) =
      (.object (done.reverse ++ members.map fun m => (m.1, .ofJson m.2)) none, rest) := by
  induction h generalizing n done with
  | @last member cs h =>
    obtain ⟨n, rfl⟩ := Nat.exists_eq_add_of_lt hn
    have hend : EndsNumber (Byte.closingBrace :: rest) := endsNumber_cons rfl rest
    obtain ⟨bs, tail, after, hquote, hname, hvalue, hskip⟩ := reads_member h hread hend
    rw [hquote, readMembers_last hname hvalue (Draft.isBroken_ofJson _) hskip]
    simp
  | @more member members cs ds h hrest ih =>
    have hlength : (cs ++ ',' :: ds).length = cs.length + (ds.length + 1) := by simp
    obtain ⟨n, rfl⟩ : ∃ k, n = k + 1 := Nat.exists_eq_add_of_le' (by omega)
    have hcomma : EndsNumber (Byte.comma :: (utf8 ds ++ Byte.closingBrace :: rest)) :=
      endsNumber_cons rfl _
    obtain ⟨bs, tail, after, hquote, hname, hvalue, hskip⟩ :=
      reads_member h (hread.mono (by omega)) hcomma
    have hmore := ih (hread.mono (by omega)) (show ds.length < n by omega)
      ((member.1, .ofJson member.2) :: done)
    have hutf8 : utf8 (cs ++ ',' :: ds) ++ Byte.closingBrace :: rest =
        utf8 cs ++ Byte.comma :: (utf8 ds ++ Byte.closingBrace :: rest) := by
      rw [utf8_append, List.append_assoc]
      rfl
    rw [hutf8, hquote, readMembers_more hname hvalue (Draft.isBroken_ofJson _) hskip, hmore]
    simp

theorem reads_object {members : List (String × Json)}
    (h : SeriesText (MemberText inner) members cs)
    (hread : ReadsUpTo fuel depth inner cs.length) (hfuel : cs.length < fuel) (rest : Bytes) :
    readObject (readValue fuel depth) fuel (utf8 cs ++ Byte.closingBrace :: rest) =
      (.ofJson (.object members), rest) := by
  have hmembers := readMembers_series h hread hfuel [] rest
  rw [Draft.ofJson, Draft.ofMembers_eq, readObject]
  split
  · -- Members start with a quote, so the object is not taken for an empty one.
    rename_i tail heq
    obtain ⟨k, rfl⟩ := Nat.exists_eq_add_of_lt hfuel
    have hstop : readMembers (readValue (cs.length + k + 1) depth) (cs.length + k + 1) []
        (Byte.closingBrace :: tail) = (.object [] (some .malformed), []) := rfl
    rw [heq] at hmembers
    cases (Draft.object.inj (Prod.mk.inj (hstop.symm.trans hmembers)).1).2
  · exact hmembers

/-! ## Whole texts -/

theorem readArray_blank (h : BlankText cs) (value : ValueReader) (fuel : ℕ) (rest : Bytes) :
    readArray value fuel (utf8 cs ++ Byte.closingBracket :: rest) = (.array [] none, rest) := by
  have hclosing : skipSpace (Byte.closingBracket :: rest) = Byte.closingBracket :: rest :=
    skipSpace_cons rfl rest
  rw [readArray, skipSpace_blank h, hclosing]
  rfl

theorem readObject_blank (h : BlankText cs) (value : ValueReader) (fuel : ℕ) (rest : Bytes) :
    readObject value fuel (utf8 cs ++ Byte.closingBrace :: rest) = (.object [] none, rest) := by
  have hclosing : skipSpace (Byte.closingBrace :: rest) = Byte.closingBrace :: rest :=
    skipSpace_cons rfl rest
  rw [readObject, skipSpace_blank h, hclosing]
  rfl

theorem reads_nested (h : NestedText inner v cs)
    (hread : ReadsUpTo fuel depth inner fuel) (hfuel : cs.length ≤ fuel) :
    Reads (readValue fuel (depth + 1)) cs v := by
  intro rest hrest
  cases h with
  | @noItems cs h =>
    rw [utf8_between (by decide) (by decide), readValue.eq_def]
    exact readArray_blank h _ fuel rest
  | @items items cs h =>
    rw [List.length_append, List.length_cons] at hfuel
    rw [utf8_between (by decide) (by decide), readValue.eq_def]
    exact reads_array h (hread.mono (by omega)) (by omega) rest
  | @noMembers cs h =>
    rw [utf8_between (by decide) (by decide), readValue.eq_def]
    exact readObject_blank h _ fuel rest
  | @members members cs h =>
    rw [List.length_append, List.length_cons] at hfuel
    rw [utf8_between (by decide) (by decide), readValue.eq_def]
    exact reads_object h (hread.mono (by omega)) (by omega) rest

/-- A written value is read whatever follows it, unless that goes on with a number. -/
theorem reads_value (h : ValueText depth v cs) (hfuel : cs.length ≤ fuel) :
    Reads (readValue fuel depth) cs v := by
  induction depth generalizing v cs with
  | zero => exact reads_scalar h fuel 0
  | succ depth ih =>
    rcases h with h | h
    · exact reads_scalar h fuel (depth + 1)
    · refine reads_nested h (fun v ds hds hle => ?_) hfuel
      exact reads_padded hds fun es hes hle' => ih hes (hle'.trans hle)

/-- **The value of a text is read**, and nothing is left of it. -/
theorem readDocument_of_writes {text : String} (h : Writes text v) :
    readDocument text.toUTF8.data.toList = ⟨.ofJson v, none⟩ := by
  have hbytes : text.toUTF8.data.toList = utf8 text.toList := utf8Bytes_eq text
  have hlength := length_le_utf8 text.toList
  have hread : ReadsPadded (readValue ((utf8 text.toList).length + 1) maxDepth) text.toList v :=
    reads_padded h fun ds hds hle => reads_value hds (by omega)
  obtain ⟨bs, hvalue, hskip⟩ := hread [] (by simp [EndsNumber, Stops])
  rw [List.append_nil] at hvalue
  rw [hbytes, readDocument, hvalue]
  simp only [hskip]
  rfl

end Json

end Transect
