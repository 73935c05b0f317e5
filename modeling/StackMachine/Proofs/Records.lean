import StackMachine.Wire.Codec
import StackMachine.Proofs.Items
import Mathlib.Data.List.Pairwise

/-!
# Records that are read back

A record is written as a map whose entries are sorted by name, without the fields that hold nothing,
and it is read into the zero of its type, one entry after the other. A `Passage` is one field on its
way: how it is written, how it is read, and what reading it does to the record. `read_record` says
that a record arrives as its zero with every passage carried out, in the order in which the fields
are declared: sorting does not matter because different fields are put into a record independently
of each other, and what is left out would have put in what the zero holds already.

`Item.Carries` joins what the bytes need (the item is plain) and what the reader needs (it reads as
the value).
-/

namespace StackMachine.Cbor

open Text

/-- A text that can be sent: UTF-8, and of a length that a machine can count. -/
structure Legible (t : Bytes) : Prop where
  isUtf8 : Text.isUtf8 t = true
  fits : t.length < 2 ^ 63

/-- An item is read as a value, and can be written within `n` levels. -/
structure Item.Carries {γ : Type} (n : Nat) (i : Item) (r : Reading γ) (v : γ) : Prop where
  plain : i.Plain n
  read : r.read i = .ok v

theorem Item.Carries.decode_write {γ : Type} {n : Nat} {i : Item} {r : Reading γ} {v : γ}
    (h : i.Carries n r v) (hn : n ≤ maxDepth) : r.decode i.write = .ok v := by
  unfold Reading.decode
  rw [read_write h.plain hn]
  exact h.read

/-! ## Single values -/

/-- A word is written as a number of 63 bits, with the sign in the type of the item. -/
theorem ofWord_cases (v : Int64) :
    (∃ n < 2 ^ 63, Item.ofWord v = .unsigned n ∧ (n : Int) = v.toInt) ∨
    (∃ n < 2 ^ 63, Item.ofWord v = .negative n ∧ -1 - (n : Int) = v.toInt) := by
  have hlow := v.le_toInt
  have hhigh := v.toInt_lt
  unfold Item.ofWord
  split
  · next hnonneg =>
    rw [Int64.le_iff_toInt_le, Int64.toInt_zero] at hnonneg
    exact .inl ⟨v.toInt.toNat, by omega, rfl, by omega⟩
  · next hneg =>
    rw [Int64.le_iff_toInt_le, Int64.toInt_zero] at hneg
    exact .inr ⟨(-1 - v.toInt).toNat, by omega, rfl, by omega⟩

theorem plain_ofWord {n : Nat} (v : Int64) : (Item.ofWord v).Plain n := by
  rcases ofWord_cases v with ⟨k, hk, hv, -⟩ | ⟨k, hk, hv, -⟩
  · rw [hv]
    exact .unsigned (by omega)
  · rw [hv]
    exact .negative (by omega)

namespace Reading

theorem read_text {t : Bytes} (h : isUtf8 t = true) : text.read (.ofText t) = .ok t := by
  simp [text, Item.ofText, bare, textOf, piecesUtf8, h, bind, Except.bind]

theorem word?_toInt (v : Int64) (e : Except DecodeError Int64) : word? v.toInt e = .ok v := by
  have hpow : ((Nat.pow 2 63 : Nat) : Int) = 2 ^ 63 := by
    rw [Nat.pow_eq]
    exact Int.natCast_pow 2 63
  have hrange : -((Nat.pow 2 63 : Nat) : Int) ≤ v.toInt ∧
      v.toInt < ((Nat.pow 2 63 : Nat) : Int) := by
    rw [hpow]
    exact ⟨v.le_toInt, v.toInt_lt⟩
  rw [word?, if_pos hrange, Int64.ofInt_toInt]

/-- What a written word is read as, given a range check that lets it pass. The check is a parameter
here to keep its bounds closed: they are numbers too large to be counted down. -/
theorem bare_ofWord_bind {check : Int → Except DecodeError Int64 → Except DecodeError Int64}
    {v : Int64} (h : ∀ e, check v.toInt e = .ok v) (typeName : String) :
    (do
      let b ← bare (.ofWord v)
      match b with
      | .bignum n => check n (mismatch typeName b)
      | .item (.unsigned n) => check n (mismatch typeName b)
      | .item (.negative n) => check (-1 - n) (mismatch typeName b)
      | .item (.simple n) => check n (mismatch typeName b)
      | .item .null => .ok 0
      | .item .undefined => .ok 0
      | _ => mismatch typeName b) = .ok v := by
  rcases ofWord_cases v with ⟨n, -, hv, hn⟩ | ⟨n, -, hv, hn⟩
  · simp only [hv, bare, bind, Except.bind, hn, h]
  · simp only [hv, bare, bind, Except.bind, hn, h]

/-- A word is read as it was written, whatever its sign. -/
theorem read_word (typeName : String) (v : Int64) : (word typeName).read (.ofWord v) = .ok v := by
  unfold word
  exact bare_ofWord_bind (word?_toInt v) typeName

theorem read_bool (b : Bool) : bool.read (.bool b) = .ok b := rfl

/-- A list is read element by element. -/
theorem read_list {β γ : Type} {element : Reading β} {toItem : γ → Item} {f : γ → β} {xs : List γ}
    (h : ∀ x ∈ xs, element.read (toItem x) = .ok (f x)) :
    (list element).read (.array (xs.map toItem)) = .ok (some (xs.map f)) := by
  have hmap : (xs.map toItem).mapM element.read = .ok (xs.map f) := by
    induction xs with
    | nil => rfl
    | cons x xs ih =>
      rw [List.forall_mem_cons] at h
      rw [List.map_cons, List.mapM_cons, h.1, ih h.2]
      rfl
  simp only [list, bare, bind, Except.bind, hmap]
  rfl

/-- A time arrives in whole seconds. The one that stands for a missing time is null, and null is
read as it. -/
theorem read_instant (t : Instant) : instant.read (Wire.instantItem t) = .ok ⟨t.sec, 0⟩ := by
  have hwhole : ∀ sec, Instant.ofUnix sec 0 = ⟨sec, 0⟩ := by
    intro sec
    simp [Instant.ofUnix]
  unfold Wire.instantItem
  split
  · next hzero =>
    rw [hzero]
    rfl
  · rcases ofWord_cases t.sec with ⟨n, hn, hv, hsec⟩ | ⟨n, hn, hv, hsec⟩
    · have hback : Int64.ofNat n = t.sec := by
        rw [← Int64.toInt_inj, Int64.toInt_ofNat_of_lt hn, hsec]
      simp only [hv, instant, beyondTags, unannounced, bind, Except.bind, hback, hwhole]
    · have hfits : n < Nat.pow 2 63 := hn
      have hback : Int64.ofInt (-1 - (n : Int)) = t.sec := by rw [hsec, Int64.ofInt_toInt]
      simp only [hv, instant, beyondTags, unannounced, bind, Except.bind, if_pos hfits, hback,
        hwhole]

end Reading

namespace Item

theorem carries_text {n : Nat} {t : Bytes} (h : Legible t) : (ofText t).Carries n .text t :=
  ⟨.text h.fits, Reading.read_text h.isUtf8⟩

theorem carries_word {n : Nat} (typeName : String) (v : Int64) :
    (ofWord v).Carries n (.word typeName) v :=
  ⟨plain_ofWord v, Reading.read_word typeName v⟩

theorem carries_bool {n : Nat} (b : Bool) : (bool b).Carries n .bool b :=
  ⟨.bool b, Reading.read_bool b⟩

theorem carries_instant {n : Nat} (t : Instant) :
    (Wire.instantItem t).Carries n .instant ⟨t.sec, 0⟩ := by
  refine ⟨?_, Reading.read_instant t⟩
  unfold Wire.instantItem
  split
  · exact .null
  · exact plain_ofWord t.sec

theorem carries_list {β γ : Type} {n : Nat} {element : Reading β} {toItem : γ → Item} {f : γ → β}
    {xs : List γ} (hcount : xs.length ≤ maxElements)
    (h : ∀ x ∈ xs, (toItem x).Carries n element (f x)) :
    (array (xs.map toItem)).Carries (n + 1) (.list element) (some (xs.map f)) := by
  refine ⟨.array (by rwa [List.length_map]) ?_, Reading.read_list fun x hx => (h x hx).read⟩
  intro i hi
  obtain ⟨x, hx, rfl⟩ := List.mem_map.mp hi
  exact (h x hx).plain

theorem carries_null {β : Type} {n : Nat} (element : Reading β) :
    null.Carries n (.list element) none :=
  ⟨.null, rfl⟩

end Item

/-! ## Fields -/

/-- Names by which the fields of a record can be told apart, and few and short enough to be sent. -/
def Passage.Distinct (names : List String) : Prop :=
  (names.map utf8).Nodup ∧ names.length ≤ maxElements ∧ ∀ name ∈ names, (utf8 name).length < 2 ^ 63

instance (names : List String) : Decidable (Passage.Distinct names) :=
  inferInstanceAs (Decidable (_ ∧ _ ∧ _))

/-- A field of a record with the item it is written as, if it is written at all. -/
structure Passage {β : Type} (zero : β) (n : Nat) where
  field : Field β
  item : Option Item
  /-- What reading the field does to the record. -/
  effect : β → β
  plain : ∀ i ∈ item, i.Plain n
  read : ∀ i ∈ item, ∀ b, field.set i b = .ok (effect b)
  absent : item = none → effect zero = zero

namespace Passage

variable {β : Type} {zero : β} {n : Nat}

def name (p : Passage zero n) : Bytes := utf8 p.field.name

def sent (p : Passage zero n) : FieldItem := (p.name, p.item)

def entry (p : Passage zero n) : Bytes × Item := (p.name, p.item.getD .null)

def present (p : Passage zero n) : Bool := p.item.isSome

/-- The order in which passages are written. -/
def notAfter (p q : Passage zero n) : Bool := !keyBefore q.name p.name

def written (ps : List (Passage zero n)) : List (Passage zero n) :=
  (ps.filter present).mergeSort notAfter

def Apart (p q : Passage zero n) : Prop := ∀ b, p.effect (q.effect b) = q.effect (p.effect b)

theorem record_eq (ps : List (Passage zero n)) :
    record (ps.map sent) =
      .map ((written ps).map fun p => (.ofText p.name, p.item.getD .null)) := by
  have hpresent : (ps.map sent).filterMap (fun x => x.2.map fun i => (x.1, i)) =
      (ps.filter present).map entry := by
    induction ps with
    | nil => rfl
    | cons p ps ih =>
      rw [List.map_cons, List.filterMap_cons, List.filter_cons]
      cases hitem : p.item with
      | none => simp [sent, present, hitem, ih]
      | some i => simp [sent, present, hitem, ih, entry]
  have hsorted : (written ps).map entry =
      ((ps.filter present).map entry).mergeSort fun a b => !keyBefore b.1 a.1 :=
    List.map_mergeSort fun _ _ _ _ => rfl
  unfold record
  dsimp only
  rw [hpresent, ← hsorted, List.map_map]
  rfl

theorem perm_written (ps : List (Passage zero n)) : (written ps).Perm (ps.filter present) :=
  List.mergeSort_perm _ _

theorem mem_of_mem_written {ps : List (Passage zero n)} {p : Passage zero n} (h : p ∈ written ps) :
    p ∈ ps ∧ p.present = true :=
  List.mem_filter.mp ((perm_written ps).mem_iff.mp h)

/-- A record of passages is plain, one level above its fields. -/
theorem plain_record {ps : List (Passage zero n)} (hcount : ps.length ≤ maxElements)
    (hshort : ∀ p ∈ ps, p.name.length < 2 ^ 63) : (record (ps.map sent)).Plain (n + 1) := by
  rw [record_eq]
  apply Item.Plain.map
  · have hlength := (perm_written ps).length_eq
    have hfilter := List.length_filter_le present ps
    rw [List.length_map]
    omega
  · intro e he
    obtain ⟨p, hp, rfl⟩ := List.mem_map.mp he
    exact .text (hshort p (mem_of_mem_written hp).1)
  · intro e he
    obtain ⟨p, hp, rfl⟩ := List.mem_map.mp he
    obtain ⟨i, hi⟩ := Option.isSome_iff_exists.mp (mem_of_mem_written hp).2
    rw [hi]
    exact p.plain i hi

/-- The field of a passage is found by its name, when no other has it. -/
theorem findField_name {ps : List (Passage zero n)} (hnames : (ps.map name).Nodup)
    {p : Passage zero n} (hp : p ∈ ps) : findField (ps.map field) p.name = some p.field := by
  have hfind : (ps.map field).find? (fun f => utf8 f.name == p.name) = some p.field := by
    induction ps with
    | nil => cases hp
    | cons q ps ih =>
      rw [List.map_cons, List.nodup_cons] at hnames
      rcases List.mem_cons.mp hp with rfl | hp
      · rw [List.map_cons, List.find?_cons_of_pos (by exact beq_self_eq_true _)]
      · have hne : q.name ≠ p.name := fun h => hnames.1 (h ▸ List.mem_map_of_mem hp)
        rw [List.map_cons, List.find?_cons_of_neg (by simpa [name] using hne)]
        exact ih hnames.2 hp
  rw [findField, hfind]
  rfl

theorem readFields_passages {ps : List (Passage zero n)} (hnames : (ps.map name).Nodup)
    (typeName : String) {qs : List (Passage zero n)} (hqs : ∀ q ∈ qs, q ∈ ps ∧ q.present = true)
    (hnodup : (qs.map name).Nodup) {seen : List String} (hseen : ∀ q ∈ qs, q.field.name ∉ seen)
    (b : β) :
    readFields typeName (ps.map field) seen b
      (qs.map fun q => (.ofText q.name, q.item.getD .null)) =
      .ok (qs.foldl (fun b q => q.effect b) b) := by
  induction qs generalizing seen b with
  | nil => rfl
  | cons q qs ih =>
    rw [List.forall_mem_cons] at hqs hseen
    rw [List.map_cons, List.nodup_cons] at hnodup
    obtain ⟨i, hi⟩ := Option.isSome_iff_exists.mp hqs.1.2
    -- no field is met twice, so none is passed over
    have hseen' : ∀ r ∈ qs, r.field.name ∉ q.field.name :: seen := by
      intro r hr hmem
      rcases List.mem_cons.mp hmem with heq | hmem
      · apply hnodup.1
        rw [List.mem_map]
        exact ⟨r, hr, congrArg utf8 heq⟩
      · exact hseen.2 r hr hmem
    have hutf8 : textOf [q.name] = .ok q.name := by
      simp [textOf, piecesUtf8, name, isUtf8_utf8]
    rw [List.map_cons, hi, Option.getD_some, Item.ofText, readFields]
    rw [hutf8]
    simp only [bind, Except.bind, findField_name hnames hqs.1.1]
    rw [if_neg (by simpa using hseen.1), q.read i hi]
    exact ih hqs.2 hnodup.2 hseen' (q.effect b)

instance : Std.Symm (@Apart β zero n) := ⟨fun _ _ h b => (h b).symm⟩

theorem apart_of_mem {ps : List (Passage zero n)} (h : ps.Pairwise Apart) {p q : Passage zero n}
    (hp : p ∈ ps) (hq : q ∈ ps) : p.Apart q :=
  List.Pairwise.forall_of_forall (fun _ _ _ => rfl) h hp hq

/-- Fields that were left out would have changed nothing. -/
theorem foldl_filter_present {ps : List (Passage zero n)} (h : ps.Pairwise Apart) {b : β}
    (hb : ∀ p ∈ ps, p.item = none → p.effect b = b) :
    (ps.filter present).foldl (fun b p => p.effect b) b = ps.foldl (fun b p => p.effect b) b := by
  induction ps generalizing b with
  | nil => rfl
  | cons p ps ih =>
    rw [List.pairwise_cons] at h
    rw [List.forall_mem_cons] at hb
    cases hitem : p.item with
    | none =>
      have habsent : p.present ≠ true := by simp [present, hitem]
      rw [List.filter_cons_of_neg habsent, List.foldl_cons, hb.1 hitem]
      exact ih h.2 hb.2
    | some i =>
      have hpresent : p.present = true := by simp [present, hitem]
      rw [List.filter_cons_of_pos hpresent, List.foldl_cons, List.foldl_cons]
      apply ih h.2
      -- what a later field would not have changed, it does not change after this one either
      intro q hq hnone
      rw [← h.1 q hq b, hb.2 q hq hnone]

/-- The order in which fields are read does not matter. -/
theorem foldl_written {ps : List (Passage zero n)} (h : ps.Pairwise Apart) :
    (written ps).foldl (fun b p => p.effect b) zero = ps.foldl (fun b p => p.effect b) zero := by
  rw [← foldl_filter_present h fun p _ => p.absent]
  apply (perm_written ps).foldl_eq'
  intro p hp q hq b
  exact apart_of_mem h (mem_of_mem_written hq).1 (mem_of_mem_written hp).1 b

/-- A record is read as the zero of its type with every field put into it. -/
theorem read_record {ps : List (Passage zero n)} (hnames : (ps.map name).Nodup)
    (hapart : ps.Pairwise Apart) (typeName : String) :
    (Reading.record typeName zero (ps.map field)).read (record (ps.map sent)) =
      .ok (ps.foldl (fun b p => p.effect b) zero) := by
  have hwritten : ((written ps).map name).Nodup := by
    apply ((perm_written ps).map name).nodup_iff.mpr
    exact hnames.sublist (List.filter_sublist.map name)
  rw [record_eq, ← foldl_written hapart]
  exact readFields_passages hnames typeName (fun _ => mem_of_mem_written) hwritten
    (fun _ _ => List.not_mem_nil) zero

/-- A record carries the zero of its type with every field put into it. -/
theorem carries_record (ps : List (Passage zero n)) {names : List String} (hnames : Distinct names)
    (hfields : ps.map (·.field.name) = names) (hapart : ps.Pairwise Apart) (typeName : String) :
    (record (ps.map sent)).Carries (n + 1) (.record typeName zero (ps.map field))
      (ps.foldl (fun b p => p.effect b) zero) := by
  subst hfields
  obtain ⟨hnodup, hcount, hshort⟩ := hnames
  rw [List.map_map] at hnodup
  rw [List.length_map] at hcount
  rw [List.forall_mem_map] at hshort
  exact ⟨plain_record hcount hshort, read_record hnodup hapart typeName⟩

/-! ### Kinds of fields -/

section

variable {γ : Type} (name : String) (value : Reading γ) (put : γ → β → β)

/-- A field by what is written for it. A field that is left out must hold what the zero holds. -/
def of (v : γ) (item : Option Item) (hitem : ∀ i ∈ item, i.Carries n value v)
    (habsent : item = none → put v zero = zero) : Passage zero n where
  field := .of name value put
  item := item
  effect := put v
  plain i hi := (hitem i hi).plain
  read i hi b := by
    show (value.read i).map _ = _
    rw [(hitem i hi).read]
    rfl
  absent := habsent

@[simp]
theorem effect_of (v : γ) (item : Option Item) (hitem : ∀ i ∈ item, i.Carries n value v)
    (habsent : item = none → put v zero = zero) :
    (of name value put v item hitem habsent).effect = put v :=
  rfl

/-- A field that is always written. -/
def kept {v : γ} {i : Item} (h : i.Carries n value v) : Passage zero n :=
  of name value put v (some i) (by simpa using h) nofun

@[simp]
theorem effect_kept {v : γ} {i : Item} (h : i.Carries n value v) :
    (kept name value put h : Passage zero n).effect = put v :=
  rfl

/-- A field that is left out under a condition. -/
def omitIf (p : Prop) [Decidable p] {v : γ} {i : Item} (h : ¬ p → i.Carries n value v)
    (hzero : p → put v zero = zero) : Passage zero n :=
  of name value put v (if p then none else some i)
    (by
      intro j hj
      by_cases hp : p
      · rw [if_pos hp] at hj
        cases hj
      · rw [if_neg hp] at hj
        cases hj
        exact h hp)
    (by
      intro hnone
      by_cases hp : p
      · exact hzero hp
      · rw [if_neg hp] at hnone
        cases hnone)

@[simp]
theorem effect_omitIf (p : Prop) [Decidable p] {v : γ} {i : Item} (h : ¬ p → i.Carries n value v)
    (hzero : p → put v zero = zero) : (omitIf name value put p h hzero).effect = put v :=
  rfl

end

section

variable (name : String) (typeName : String)

/-- A text that is always written. -/
def text (put : Bytes → β → β) {t : Bytes} (h : Legible t) : Passage zero n :=
  kept name .text put (Item.carries_text h)

@[simp]
theorem effect_text (put : Bytes → β → β) {t : Bytes} (h : Legible t) :
    (text name put h : Passage zero n).effect = put t :=
  rfl

/-- A text that is left out when it is empty. -/
def textUnlessEmpty (put : Bytes → β → β) {t : Bytes} (h : Legible t) (hzero : put [] zero = zero) :
    Passage zero n :=
  omitIf name .text put (t = []) (fun _ => Item.carries_text h) fun ht => ht ▸ hzero

@[simp]
theorem effect_textUnlessEmpty (put : Bytes → β → β) {t : Bytes} (h : Legible t)
    (hzero : put [] zero = zero) :
    (textUnlessEmpty name put h hzero : Passage zero n).effect = put t :=
  rfl

/-- A number that is always written. -/
def word (put : Int64 → β → β) (v : Int64) : Passage zero n :=
  kept name (.word typeName) put (Item.carries_word typeName v)

@[simp]
theorem effect_word (put : Int64 → β → β) (v : Int64) :
    (word name typeName put v : Passage zero n).effect = put v :=
  rfl

/-- A number that is left out when it is zero. -/
def wordUnlessZero (put : Int64 → β → β) (v : Int64) (hzero : put 0 zero = zero) : Passage zero n :=
  omitIf name (.word typeName) put (v = 0) (fun _ => Item.carries_word typeName v)
    fun hv => hv ▸ hzero

@[simp]
theorem effect_wordUnlessZero (put : Int64 → β → β) (v : Int64) (hzero : put 0 zero = zero) :
    (wordUnlessZero name typeName put v hzero : Passage zero n).effect = put v :=
  rfl

end

end Passage

/-! ## Records that are refused -/

/-- The entries of a record are its fields that are present, in some order. -/
theorem record_eq_map (fields : List FieldItem) :
    ∃ entries, record fields = .map entries ∧
      entries.Perm (fields.filterMap fun f => f.2.map fun i => (.ofText f.1, i)) := by
  refine ⟨_, rfl, ((List.mergeSort_perm _ _).map _).trans ?_⟩
  rw [List.map_filterMap]
  apply List.Perm.of_eq
  congr 1
  funext f
  rw [Option.map_map]
  rfl

/-- A record with a list that is too long cannot be decoded, whatever its other fields are. -/
theorem decode_record_of_overlong {γ : Type} (r : Reading γ) {n : Nat} {fields : List FieldItem}
    {names : List String} (hnames : Passage.Distinct names)
    (hfields : fields.map (·.1) = names.map utf8)
    (hitems : ∀ f ∈ fields, ∀ i ∈ f.2, i.Plain n ∨ i.Overlong)
    (hsome : ∃ f ∈ fields, ∃ i ∈ f.2, i.Overlong) (hn : n < maxDepth) :
    r.decode (record fields).write = .error (.read .tooManyElements) := by
  obtain ⟨-, hcount, hshort⟩ := hnames
  obtain ⟨entries, hrecord, hperm⟩ := record_eq_map fields
  have hmem : ∀ e, e ∈ entries ↔ ∃ f ∈ fields, ∃ i ∈ f.2, (.ofText f.1, i) = e := by
    intro e
    simp only [hperm.mem_iff, List.mem_filterMap, Option.map_eq_some_iff, Option.mem_def]
  have hread : read (Item.map entries).write = .error .tooManyElements := by
    apply read_of_overlong (n := n)
    · have hlength := congrArg List.length hfields
      rw [List.length_map, List.length_map] at hlength
      have hpresent :=
        List.length_filterMap_le (fun f : FieldItem => f.2.map fun i => (Item.ofText f.1, i)) fields
      rw [hperm.length_eq]
      omega
    · intro e he
      obtain ⟨f, hf, i, -, rfl⟩ := (hmem e).mp he
      have hname : f.1 ∈ names.map utf8 := hfields ▸ List.mem_map_of_mem hf
      obtain ⟨name, hmem, heq⟩ := List.mem_map.mp hname
      exact .text (heq ▸ hshort name hmem)
    · intro e he
      obtain ⟨f, hf, i, hi, rfl⟩ := (hmem e).mp he
      exact hitems f hf i hi
    · obtain ⟨f, hf, i, hi, hover⟩ := hsome
      exact ⟨_, (hmem _).mpr ⟨f, hf, i, hi, rfl⟩, hover⟩
    · exact hn
  unfold Reading.decode
  rw [hrecord, hread]
  rfl

end StackMachine.Cbor
