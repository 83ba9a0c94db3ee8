import CaseReport.Proofs.Toml.Headers
import CaseReport.Proofs.Toml.LongTexts
import CaseReport.Proofs.Toml.Parts
import CaseReport.Proofs.Toml.PlainValues

/-!
# Documents without duplicates

Pairs of which no keys begin with other keys can be bound one after the other: what is on the way to
some keys stays free while others are bound. So every value is read as one, those in braces
included. A section is added where its header leads, and those ahead of it have left that open
unless they define the same table. So a document is valid if it has values and defines nothing
twice.
-/

namespace CaseReport.Toml

namespace Table

variable {way : Way} {making : Making} {key other : String} {keys keys' : List String}
  {value : Value} {t u v inner inner' : Table} {change : String → Table → Option Table}

/-! ## Keys that are free -/

/-- Nothing is bound yet at the end of some keys, and only tables that pairs lead through are met
before. -/
def IsFree : List String → Table → Prop
  | [], _ => False
  | [key], table => table.get? key = none
  | key :: other :: keys, table =>
    ∃ inner, Finds .path key table inner ∧ IsFree (other :: keys) inner

/-- One table comes from another by binding some keys: for keys that are apart from them, what was
free still is, and what was open to a header still is. -/
structure Keeps (apart : List String → Prop) (t u : Table) : Prop where
  free : ∀ {keys}, apart keys → IsFree keys t → IsFree keys u
  opens : ∀ {keys} {P : Option Value → Prop}, apart keys → Opens P keys t → Opens P keys u

theorem Keeps.refl (apart : List String → Prop) (t : Table) : Keeps apart t t :=
  ⟨fun _ h => h, fun _ h => h⟩

theorem Keeps.trans {apart apart' : List String → Prop} (h : Keeps apart t u)
    (h' : Keeps apart' u v) : Keeps (fun keys => apart keys ∧ apart' keys) t v :=
  ⟨fun hapart hfree => h'.free hapart.2 (h.free hapart.1 hfree),
    fun hapart hopens => h'.opens hapart.2 (h.opens hapart.1 hopens)⟩

theorem toValue_injective : Function.Injective toValue := by
  rintro ⟨making, entries⟩ ⟨making', entries'⟩ h
  cases h
  rfl

theorem Finds.unique (h : Finds way key t inner) (h' : Finds way key t inner') :
    inner = inner' := by
  rcases h with ⟨hnone, rfl⟩ | ⟨hsome, -⟩
  · rcases h' with ⟨-, rfl⟩ | ⟨hsome', -⟩
    · rfl
    · cases hnone.symm.trans hsome'
  · rcases h' with ⟨hnone', -⟩ | ⟨hsome', -⟩
    · cases hnone'.symm.trans hsome
    · exact toValue_injective (Option.some.inj (hsome.symm.trans hsome'))

/-- What pairs lead through, headers lead through. -/
theorem Finds.exists_inner? (h : Finds way key t inner) :
    ∃ made, inner? (t.get? key) = some made ∧ made.entries = inner.entries := by
  rcases h with ⟨hnone, rfl⟩ | ⟨hsome, -⟩
  · exact ⟨_, congrArg inner? hnone, rfl⟩
  · exact ⟨_, congrArg inner? hsome, rfl⟩

theorem isFree_empty (h : keys ≠ []) : IsFree keys (empty making) := by
  induction keys generalizing making with
  | nil => exact h rfl
  | cons key keys ih =>
    cases keys with
    | nil => rfl
    | cons other keys => exact ⟨_, .inl ⟨rfl, rfl⟩, ih (List.cons_ne_nil other keys)⟩

theorem IsFree.congr_get? (h : IsFree (key :: keys) t) (hget : u.get? key = t.get? key) :
    IsFree (key :: keys) u := by
  cases keys with
  | nil => exact hget.trans h
  | cons other keys =>
    obtain ⟨inner, hinner, h⟩ := h
    exact ⟨inner, by rwa [Finds, hget], h⟩

/-! ## Binding free keys -/

theorem keeps_set : Keeps (AreApart [key]) t (t.set key value) where
  free := by
    intro keys hapart h
    cases keys with
    | nil => exact h
    | cons key' keys =>
      refine h.congr_get? (get?_set_of_ne ?_)
      rintro rfl
      exact not_areApart_singleton hapart
  opens := by
    intro keys P hapart h
    cases keys with
    | nil => exact h
    | cons key' keys =>
      refine h.set_of_ne ?_
      rintro rfl
      exact not_areApart_singleton hapart

theorem Keeps.set_inside (h : Keeps (AreApart (other :: keys)) inner u)
    (hinner : Finds .path key t inner) (hmaking : u.making = inner.making) :
    Keeps (AreApart (key :: other :: keys)) t (t.set key u.toValue) where
  free := by
    intro keys' hapart hfree
    cases keys' with
    | nil => exact hfree
    | cons key' keys' =>
      by_cases hkey : key' = key
      · subst hkey
        rw [areApart_cons_cons] at hapart
        cases keys' with
        | nil => exact absurd List.nil_prefix hapart.2
        | cons other' keys' =>
          obtain ⟨inner', hinner', hfree⟩ := hfree
          cases hinner.unique hinner'
          exact ⟨u, .set (hmaking ▸ hinner.admits), h.free hapart hfree⟩
      · exact hfree.congr_get? (get?_set_of_ne hkey)
  opens := by
    intro keys' P hapart hopens
    cases keys' with
    | nil => exact hopens
    | cons key' keys' =>
      by_cases hkey : key' = key
      · subst hkey
        rw [areApart_cons_cons] at hapart
        cases keys' with
        | nil => exact absurd List.nil_prefix hapart.2
        | cons other' keys' =>
          obtain ⟨made, hmade, hentries⟩ := hinner.exists_inner?
          obtain ⟨inner', hinner', hopens⟩ := hopens
          cases hmade.symm.trans hinner'
          exact ⟨u, congrArg inner? get?_set_self, h.opens hapart (hopens.of_entries hentries.symm)⟩
      · exact hopens.set_of_ne hkey

/-- A free key is bound in the table that paths lead to. -/
theorem exists_bindOnPath (hadmits : t.making = .onPath) (hfree : IsFree keys t) :
    ∃ u, alterLast .path (bindOnPath value) keys t = some u ∧ u.making = t.making ∧
      Keeps (AreApart keys) t u := by
  induction keys generalizing t with
  | nil => exact hfree.elim
  | cons key keys ih =>
    cases keys with
    | nil => exact ⟨_, (if_pos hadmits).trans (bind_of_none hfree), rfl, keeps_set⟩
    | cons other keys =>
      obtain ⟨inner, hinner, hfree⟩ := hfree
      obtain ⟨u, hu, hmaking, hkeeps⟩ := ih hinner.admits hfree
      refine ⟨t.set key u.toValue, ?_, rfl, hkeeps.set_inside hinner hmaking⟩
      rw [alterLast_cons_cons, hinner.into, hu]
      rfl

theorem exists_addPair (ht : t.making ≠ .onPath) (hfree : IsFree keys t) :
    ∃ u, t.addPair keys value = some u ∧ u.making = t.making ∧ Keeps (AreApart keys) t u := by
  cases keys with
  | nil => exact hfree.elim
  | cons key keys =>
    cases keys with
    | nil => exact ⟨_, (addPair_singleton ht).trans (bind_of_none hfree), rfl, keeps_set⟩
    | cons other keys =>
      obtain ⟨inner, hinner, hfree⟩ := hfree
      obtain ⟨u, hu, hmaking, hkeeps⟩ := exists_bindOnPath hinner.admits hfree
      refine ⟨t.set key u.toValue, ?_, rfl, hkeeps.set_inside hinner hmaking⟩
      rw [addPair_cons_cons, alterLast_cons_cons, hinner.into, hu]
      rfl

end Table

open Table

variable {depth : Nat} {t u : Table} {pairs : List Pair} {part other : Section}
  {seen sections : List Section} {document : Document} {old : Option Value} {value : Value}

/-! ## Pairs that bind nothing twice -/

/-- Keys that are apart from those of all these pairs. -/
def AreApartFrom (pairs : List Pair) (keys : List String) : Prop :=
  ∀ pair ∈ pairs, AreApart pair.keys keys

theorem Pair.exists_addTo {pair : Pair} (hfit : HasFitLength pair.keys)
    (hvalue : IsValueText depth pair.value) (ht : t.making ≠ .onPath)
    (hfree : IsFree pair.keys t) :
    ∃ u, pair.addTo depth t = some u ∧ u.making = t.making ∧ Keeps (AreApart pair.keys) t u := by
  obtain ⟨v, hv⟩ := hvalue
  obtain ⟨u, hu, hkeeps⟩ := exists_addPair ht hfree
  exact ⟨u, Pair.addTo_eq_some_iff.2 ⟨_, v, Pair.read?_eq_some_iff.2 ⟨hv, hfit.2, rfl⟩, hu⟩, hkeeps⟩

theorem HaveApartKeys.exists_addWritten (h : HaveApartKeys pairs)
    (hvalues : ∀ pair ∈ pairs, IsValueText depth pair.value) (ht : t.making ≠ .onPath)
    (hfree : ∀ pair ∈ pairs, IsFree pair.keys t) :
    ∃ u, addWritten depth pairs t = some u ∧ Keeps (AreApartFrom pairs) t u := by
  induction pairs generalizing t with
  | nil => exact ⟨t, rfl, .refl _ t⟩
  | cons pair pairs ih =>
    obtain ⟨hfit, hapart⟩ := h
    rw [List.forall_mem_cons] at hfit hvalues hfree
    rw [List.pairwise_cons] at hapart
    obtain ⟨w, hw, hmaking, hkeeps⟩ := Pair.exists_addTo hfit.1 hvalues.1 ht hfree.1
    obtain ⟨u, hu, hrest⟩ := ih ⟨hfit.2, hapart.2⟩ hvalues.2 (hmaking ▸ ht)
      fun other hother => hkeeps.free (hapart.1 other hother) (hfree.2 other hother)
    have hboth := hkeeps.trans hrest
    refine ⟨u, by rw [addWritten_cons, hw, Option.bind_some, hu], ?_, ?_⟩
    · exact fun hkeys => hboth.free (List.forall_mem_cons.1 hkeys)
    · exact fun hkeys => hboth.opens (List.forall_mem_cons.1 hkeys)

/-- The pairs make up a table of their own. -/
theorem HaveApartKeys.exists_own (h : HaveApartKeys pairs)
    (hvalues : ∀ pair ∈ pairs, IsValueText depth pair.value) :
    ∃ u, addWritten depth pairs (.empty .defined) = some u ∧
      Keeps (AreApartFrom pairs) (.empty .defined) u :=
  h.exists_addWritten hvalues (by nofun) fun pair hpair => isFree_empty (h.fit pair hpair).1

/-- Every value is read as one. The pairs in braces are added to a table of their own, so their keys
have to be apart. -/
theorem isValueText_of_isValue {s : List Char} (h : IsValue depth s) : IsValueText depth s := by
  induction h with
  | text h => exact isValueText_of_isText h _
  | boolean h => exact isValueText_of_isBoolean h _
  | number h => exact isValueText_of_isNumber h _
  | moment h => exact isValueText_of_isMoment h _
  | list h _ ih =>
    obtain ⟨values, hvalues⟩ := exists_values ih
    exact ⟨_, readValue_of_isBracketed h hvalues⟩
  | braces h hkeys _ ih =>
    obtain ⟨inner, hinner, -⟩ := hkeys.exists_own ih
    obtain ⟨values, hvalues, hadd⟩ := addWritten_eq_some_iff.1 hinner
    exact ⟨_, readValue_of_isBraced h hvalues hadd⟩

theorem AreOrderly.isValueText (h : AreOrderly depth pairs) :
    ∀ pair ∈ pairs, IsValueText depth pair.value :=
  fun pair hpair => isValueText_of_isValue (h.values pair hpair)

theorem AreOrderly.exists_addWritten (h : AreOrderly depth pairs) :
    ∃ table, addWritten depth pairs (.empty .defined) = some table := by
  obtain ⟨table, htable, -⟩ := h.keys.exists_own h.isValueText
  exact ⟨table, htable⟩

/-! ## Adding a section -/

/-- What a key is bound to when a header may define its table, and the entries that are there. -/
def Implies (w : Option Value) (entries : List (String × Value)) : Prop :=
  w = none ∧ entries = [] ∨ w = some (.table .implied entries)

theorem Implies.inner?_eq {w : Option Value} {entries : List (String × Value)}
    (h : Implies w entries) : inner? w = some ⟨.implied, entries⟩ := by
  rcases h with ⟨rfl, rfl⟩ | rfl <;> rfl

theorem Implies.withInner {w : Option Value} {entries : List (String × Value)} {inner : Table}
    (h : Implies w entries) (hmaking : inner.making = .implied) :
    Implies (some (withInner inner w)) inner.entries := by
  refine .inr ?_
  rcases h with ⟨rfl, rfl⟩ | rfl
  · exact congrArg (fun making => some (Value.table making inner.entries)) hmaking
  · exact congrArg (fun making => some (Value.table making inner.entries)) hmaking

/-- A header may define a table with these pairs. -/
def CanDefine (pairs : List Pair) (w : Option Value) : Prop :=
  ∃ entries, Implies w entries ∧ ∀ pair ∈ pairs, IsFree pair.keys ⟨.defined, entries⟩

/-- A key is bound to an array of tables. -/
def IsArray (w : Option Value) : Prop :=
  ∃ items, w = some (.tables items)

/-- What a key may be bound to for a section to be added there. -/
def Section.Admits (part : Section) (w : Option Value) : Prop :=
  match part.heading with
  | .table _ => CanDefine part.pairs w
  | .arrayItem _ => w = none ∨ IsArray w

/-- What a key is bound to when a section was added there. In a table that was defined there is
still open what was open before, and in a new table of an array everything, apart from their pairs.
-/
inductive Section.Leaves (part : Section) (old : Option Value) (value : Value) : Prop where
  | table {keys} (hheading : part.heading = .table keys)
      (hbelow : ∀ {P rest}, AreApartFrom part.pairs rest → OpensBelow P rest old →
        OpensBelow P rest (some value))
  | arrayItem {keys} (hheading : part.heading = .arrayItem keys) (harray : IsArray (some value))
      (hbelow : ∀ {P : Option Value → Prop} {rest}, AreApartFrom part.pairs rest → rest ≠ [] →
        P none → OpensBelow P rest (some value))

theorem CanDefine.exists_defined {values : List (List String × Value)} {w : Option Value}
    (h : AreOrderly maxDepth pairs) (hvalues : pairs.mapM (Pair.read? maxDepth) = some values)
    (hw : CanDefine pairs w) : ∃ value, defined? values w = some value ∧
      ∀ P rest, AreApartFrom pairs rest → OpensBelow P rest w → OpensBelow P rest (some value) := by
  obtain ⟨entries, hentries, hfree⟩ := hw
  obtain ⟨table, htable, hkeeps⟩ := h.keys.exists_addWritten h.isValueText (by nofun) hfree
  obtain ⟨values', hvalues', hadd⟩ := addWritten_eq_some_iff.1 htable
  cases hvalues.symm.trans hvalues'
  refine ⟨_, defined?_eq_some_iff.2 ⟨entries, table, hentries, hadd, rfl⟩, ?_⟩
  rintro P rest hapart ⟨inner, hinner, hopens⟩
  cases hentries.inner?_eq.symm.trans hinner
  exact ⟨table, rfl, hkeeps.opens hapart (hopens.of_entries rfl)⟩

/-- A section is added where its header leads to what admits it. -/
theorem Section.exists_addTo (h : AreOrderly maxDepth part.pairs)
    (hfit : HasFitLength part.heading.keys) (hopens : Opens part.Admits part.heading.keys t) :
    ∃ old value u, part.Leaves old value ∧ Changed part.heading.keys old value t u ∧
      part.addTo t = some u := by
  obtain ⟨own, hown, hkeeps⟩ := h.keys.exists_own h.isValueText
  obtain ⟨values, hvalues, hadd⟩ := addWritten_eq_some_iff.1 hown
  obtain ⟨heading, pairs⟩ := part
  cases heading with
  | table keys =>
    have hadded : Section.addTo ⟨.table keys, pairs⟩ t = _ := addTo_of_table hvalues hfit.2
    rw [hadded]
    refine hopens.exists_changed fun w hw => ?_
    obtain ⟨value, hvalue, hbelow⟩ := CanDefine.exists_defined h hvalues hw
    exact ⟨value, hvalue, .table rfl fun hapart => hbelow _ _ hapart⟩
  | arrayItem keys =>
    have hadded : Section.addTo ⟨.arrayItem keys, pairs⟩ t = _ :=
      addTo_of_arrayItem hvalues hfit.2 hadd
    rw [hadded]
    have hleaves : ∀ w earlier, Section.Leaves ⟨.arrayItem keys, pairs⟩ w
        (.tables (own.entries :: earlier)) := fun w earlier =>
      .arrayItem rfl ⟨_, rfl⟩ fun hapart hne hnone =>
        ⟨_, rfl, (hkeeps.opens hapart (opens_empty hne hnone)).of_entries rfl⟩
    refine hopens.exists_changed fun w hw => ?_
    rcases hw with rfl | ⟨items, rfl⟩
    · exact ⟨_, rfl, hleaves _ []⟩
    · exact ⟨_, rfl, hleaves _ items⟩

/-! ## What a section leaves open -/

theorem IsArray.withInner {w : Option Value} {inner inner' : Table} (h : IsArray w)
    (hinner : inner? w = some inner) : IsArray (some (withInner inner' w)) := by
  obtain ⟨items, rfl⟩ := h
  cases items with
  | nil => cases hinner
  | cons last earlier => exact ⟨_, rfl⟩

/-- A table can still be defined when one below it was changed, unless one of its pairs leads
there. -/
theorem CanDefine.withInner {w : Option Value} {inner inner' : Table} {key : String}
    {rest : List String} (h : CanDefine pairs w) (hinner : inner? w = some inner)
    (hchanged : Changed (key :: rest) old value inner inner')
    (hpairs : ∀ pair ∈ pairs, pair.keys.head? ≠ some key) :
    CanDefine pairs (some (withInner inner' w)) := by
  obtain ⟨entries, hentries, hfree⟩ := h
  cases hentries.inner?_eq.symm.trans hinner
  refine ⟨inner'.entries, hentries.withInner hchanged.making_eq, fun pair hpair => ?_⟩
  have hne := hpairs pair hpair
  have hpairFree := hfree pair hpair
  cases hkeys : pair.keys with
  | nil =>
    rw [hkeys] at hpairFree
    exact hpairFree.elim
  | cons first keys =>
    rw [hkeys] at hne hpairFree
    exact hpairFree.congr_get? (hchanged.get?_of_ne fun heq => hne (congrArg some heq))

/-- A change below an array leaves it an array. -/
theorem Table.Changed.isArray_above {keys rest : List String}
    (h : Changed (keys ++ rest) old value t u) (hrest : rest ≠ []) (harray : Opens IsArray keys t) :
    Opens IsArray keys u := by
  obtain ⟨w, inner, inner', hinner, -, habove⟩ := h.of_append harray.ne_nil hrest
  exact habove.opens ((habove.of_opens harray).withInner hinner)

theorem AreApart.symm {keys keys' : List String} (h : AreApart keys keys') : AreApart keys' keys :=
  ⟨h.2, h.1⟩

theorem AreApart.append {keys keys' : List String} (h : AreApart keys keys') (rest : List String) :
    AreApart (keys ++ rest) keys' := by
  have hkeys : keys <+: keys ++ rest := List.prefix_append keys rest
  refine ⟨fun hprefix => h.1 (hkeys.trans hprefix), fun hprefix => ?_⟩
  exact (List.prefix_or_prefix_of_prefix hkeys hprefix).elim h.1 h.2

/-- Keys that begin in different ways are apart. -/
theorem areApart_of_head?_ne {key : String} {keys rest : List String} (hne : keys ≠ [])
    (h : keys.head? ≠ some key) : AreApart keys (key :: rest) := by
  obtain ⟨first, keys, rfl⟩ := List.exists_cons_of_ne_nil hne
  have hfirst : first ≠ key := fun heq => h (congrArg some heq)
  simp [AreApart, List.cons_prefix_cons, hfirst, hfirst.symm]

/-! ## Adding sections in order -/

/-- A section with orderly pairs, apart from those of the document itself. -/
structure Section.IsOrderly (own : List Pair) (part : Section) : Prop where
  inside : AreOrderly maxDepth part.pairs
  fit : HasFitLength part.heading.keys
  outside : AreApartFrom own part.heading.keys

/-- Each section for which those so far leave room can be added, and the arrays are there to which
one of these belongs. -/
structure IsReady (own : List Pair) (seen : List Section) (t : Table) : Prop where
  opens : ∀ part : Section, part.IsOrderly own → part.Follows seen →
    Opens part.Admits part.heading.keys t
  arrays : ∀ part ∈ seen, ∀ keys, part.heading = .arrayItem keys → Opens IsArray keys t

variable {own : List Pair}

theorem Section.IsOrderly.admits_none (h : part.IsOrderly own) : part.Admits none := by
  rw [Section.Admits]
  cases part.heading with
  | table =>
    exact ⟨[], .inl ⟨rfl, rfl⟩, fun pair hpair => isFree_empty (h.inside.keys.fit pair hpair).1⟩
  | arrayItem => exact .inl rfl

theorem Heading.Hides.exists_append {heading : Heading} {keys : List String}
    (h : heading.Hides keys) : ∃ rest, keys = heading.keys ++ rest := by
  cases heading with
  | table => exact h.elim
  | arrayItem =>
    obtain ⟨rest, rfl⟩ := h
    exact ⟨rest, rfl⟩

theorem Section.Allows.heading_ne (h : part.Allows other) : other.heading ≠ part.heading := by
  intro heq
  cases h with
  | apart hapart =>
    rw [heq] at hapart
    exact hapart.1 List.prefix_rfl
  | below hne hkeys =>
    rw [heq] at hkeys
    exact hne (List.self_eq_append_right.1 hkeys)
  | above htable hkeys =>
    rw [← heq, htable] at hkeys
    cases List.self_eq_append_right.1 hkeys

/-- A later section that is not in an array leaves room, with what the header of the array hides, as
it does with the header itself. -/
theorem Section.Follows.of_behind (h : other.Follows (part.behind seen))
    (hallows : part.Allows other)
    (houtside : (∃ keys, part.heading = .table keys) ∨
      ¬part.heading.keys <+: other.heading.keys) : other.Follows seen := by
  intro p hp
  by_cases hhides : part.heading.Hides p.heading.keys
  · obtain ⟨rest, hrest⟩ := hhides.exists_append
    refine .inl ?_
    cases hallows with
    | apart hapart =>
      refine .apart ?_
      rw [hrest]
      exact hapart.append rest
    | below _ hkeys =>
      rcases houtside with ⟨keys, htable⟩ | hprefix
      · rw [htable] at hhides
        exact hhides.elim
      · exact absurd ⟨_, hkeys.symm⟩ hprefix
    | @above front key below htable hkeys hpairs =>
      have hlonger : p.heading.keys = front ++ key :: (below ++ rest) := by
        rw [hrest, hkeys, List.append_assoc, List.cons_append]
      exact .above htable hlonger hpairs
  · have hmem : p ∈ part.behind seen :=
      List.mem_cons_of_mem _ (List.mem_filter.2 ⟨hp, by simpa using hhides⟩)
    refine (h p hmem).imp_right fun ⟨hheading, hother⟩ => ⟨?_, hother⟩
    obtain ⟨q, hq, heq⟩ := List.mem_map.1 hheading
    rcases List.mem_cons.1 hq with rfl | hq
    · exact absurd heq.symm hallows.heading_ne
    · exact List.mem_map.2 ⟨q, List.mem_of_mem_filter hq, heq⟩

/-- The arrays that are not hidden are still there when a section was added. -/
theorem IsReady.arrays_behind (h : IsReady own seen t) (hpart : part.IsOrderly own)
    (hfollows : part.Follows seen) (hleaves : part.Leaves old value)
    (hchanged : Changed part.heading.keys old value t u) :
    ∀ p ∈ part.behind seen, ∀ keys, p.heading = .arrayItem keys → Opens IsArray keys u := by
  intro p hp keys hheading
  rcases List.mem_cons.1 hp with rfl | hp
  · rw [hheading] at hchanged
    cases hleaves with
    | table htable => cases htable.symm.trans hheading
    | arrayItem _ harray => exact hchanged.opens harray
  obtain ⟨hseen, hhides⟩ := List.mem_filter.1 hp
  have harray := h.arrays p hseen keys hheading
  rcases hfollows p hseen with hallows | ⟨-, hhides'⟩
  · cases hallows with
    | apart hapart =>
      rw [hheading] at hapart
      exact hchanged.opens_apart hapart.symm harray
    | below hne hkeys =>
      rw [hkeys, hheading] at hchanged
      exact hchanged.isArray_above hne harray
    | above htable hkeys hpairs =>
      rw [htable] at hchanged
      obtain rfl : keys = _ := by simpa [hheading, Heading.keys] using hkeys
      cases hleaves with
      | table _ hbelow =>
        refine hchanged.opens_below (List.cons_ne_nil _ _) (hbelow fun pair hpair => ?_) harray
        exact areApart_of_head?_ne (hpart.inside.keys.fit pair hpair).1 (hpairs pair hpair)
      | arrayItem hitem => cases hitem.symm.trans htable
  · exact absurd hhides' (by simpa using hhides)

/-- A section for which the last one and those ahead of it leave room can be added. -/
theorem IsReady.opens_behind (h : IsReady own seen t) (hother : other.IsOrderly own)
    (hbehind : other.Follows (part.behind seen)) (hallows : part.Allows other)
    (hleaves : part.Leaves old value) (hchanged : Changed part.heading.keys old value t u) :
    Opens other.Admits other.heading.keys u := by
  cases hallows with
  | apart hapart =>
    have hfollows := hbehind.of_behind (.apart hapart) (.inr hapart.1)
    exact hchanged.opens_apart hapart (h.opens other hother hfollows)
  | @below rest hne hkeys hpairs =>
    rw [hkeys]
    cases hleaves with
    | table htable hbelow =>
      have hfollows := hbehind.of_behind (.below hne hkeys hpairs) (.inl ⟨_, htable⟩)
      have hopens := h.opens other hother hfollows
      rw [hkeys] at hopens
      exact hchanged.opens_below hne (hbelow hpairs) hopens
    | arrayItem hitem _ hbelow =>
      rw [opens_append hchanged.ne_nil hne]
      exact hchanged.opens (hbelow hpairs hne hother.admits_none)
  | @above keys key rest htable hkeys hpairs =>
    have hshorter : ¬part.heading.keys <+: other.heading.keys := by
      intro hprefix
      rw [hkeys, htable] at hprefix
      have hlength : (keys ++ key :: rest).length ≤ keys.length := hprefix.length_le
      rw [List.length_append, List.length_cons] at hlength
      omega
    have hfollows := hbehind.of_behind (.above htable hkeys hpairs) (.inr hshorter)
    have hopens := h.opens other hother hfollows
    rw [hkeys] at hchanged
    rw [htable] at hopens ⊢
    obtain ⟨w, inner, inner', hinner, hrest, habove⟩ :=
      hchanged.of_append hopens.ne_nil (List.cons_ne_nil _ _)
    have hadmits : ∀ w, other.Admits w = CanDefine other.pairs w := by
      intro w
      rw [Section.Admits, htable]
    have hdefine := habove.of_opens hopens
    refine habove.opens ?_
    rw [hadmits] at hdefine ⊢
    exact hdefine.withInner hinner hrest hpairs

theorem IsReady.addTo (h : IsReady own seen t) (hpart : part.IsOrderly own)
    (hfollows : part.Follows seen) :
    ∃ u, part.addTo t = some u ∧ IsReady own (part.behind seen) u := by
  obtain ⟨old, value, u, hleaves, hchanged, hu⟩ :=
    Section.exists_addTo hpart.inside hpart.fit (h.opens part hpart hfollows)
  have harrays := h.arrays_behind hpart hfollows hleaves hchanged
  refine ⟨u, hu, ?_, harrays⟩
  intro p hp hbehind
  rcases hbehind part List.mem_cons_self with hallows | ⟨hmem, hhides⟩
  · exact h.opens_behind hp hbehind hallows hleaves hchanged
  -- One more table of an array that is there, if it was not hidden.
  · obtain ⟨q, hq, heq⟩ := List.mem_map.1 hmem
    cases hheading : p.heading with
    | table keys =>
      rw [hheading] at hhides
      exact hhides.elim
    | arrayItem keys =>
      refine (harrays q hq keys (heq.trans hheading)).mono fun w hw => ?_
      rw [Section.Admits, hheading]
      exact .inr hw

theorem AreInOrder.exists_addParts (h : AreInOrder seen sections) (hready : IsReady own seen t)
    (hsections : ∀ part ∈ sections, part.IsOrderly own) : ∃ u, t.addParts sections = some u := by
  induction h generalizing t with
  | nil => exact ⟨t, rfl⟩
  | cons hfollows _ ih =>
    rw [List.forall_mem_cons] at hsections
    obtain ⟨w, hw, hready'⟩ := hready.addTo hsections.1 hfollows
    obtain ⟨u, hu⟩ := ih hready' hsections.2
    exact ⟨u, by rw [addParts_cons, hw, Option.bind_some, hu]⟩

/-- A document is valid if it has values and defines nothing twice. -/
theorem Document.isValid_of_isOrderly (h : document.IsOrderly) : document.IsValid := by
  obtain ⟨t, ht, hkeeps⟩ := h.pairs.keys.exists_own h.pairs.isValueText
  have hready : IsReady document.pairs [] t :=
    ⟨fun part hpart _ => hkeeps.opens hpart.outside (opens_empty hpart.fit.1 hpart.admits_none),
      nofun⟩
  obtain ⟨u, hu⟩ := h.order.exists_addParts hready fun part hpart =>
    ⟨h.inside part hpart, h.fit part hpart, fun pair hpair => h.outside pair hpair part hpart⟩
  refine Option.isSome_iff_exists.2 ⟨u, ?_⟩
  rw [Document.table?, ht]
  exact hu

end CaseReport.Toml
