import SentenceWalk.Lexicon

namespace SentenceWalk

theorem Word.repeated?_eq_none {words : List Word} {taken : List (String × String)}
    (h : Word.repeated? taken words = none) :
    (∀ word ∈ words, (word.name, word.tag) ∉ taken) ∧
      words.Pairwise fun word other => (word.name, word.tag) ≠ (other.name, other.tag) := by
  induction words generalizing taken with
  | nil => exact ⟨by simp, .nil⟩
  | cons word words ih =>
    rw [Word.repeated?] at h
    split at h
    · cases h
    · rename_i hfree
      obtain ⟨htaken, hpairwise⟩ := ih h
      refine ⟨?_, .cons ?_ hpairwise⟩
      · intro other hmem
        rcases List.mem_cons.1 hmem with rfl | hlater
        · simpa using hfree
        · exact fun hother => htaken other hlater (List.mem_cons_of_mem _ hother)
      · intro other hmem heq
        exact htaken other hmem (heq ▸ List.mem_cons_self)

theorem Word.nodup_of_repeated? {words : List Word} (h : Word.repeated? [] words = none) :
    (words.map Word.key).Nodup :=
  List.pairwise_map.2 (repeated?_eq_none h).2

theorem Word.not_nodup_of_repeated {before after : List Word} {word : Word}
    (h : word.key ∈ before.map Word.key) :
    ¬ ((before ++ word :: after).map Word.key).Nodup := by
  rw [List.map_append, List.nodup_append]
  rintro ⟨_, _, hdisjoint⟩
  exact hdisjoint _ h _ List.mem_cons_self rfl

namespace WordTables

variable {tables : WordTables} {entered words : List Word} {word : Word}

def placesOf (words : List Word) (name : String) : List Nat :=
  (words.zipIdx.filter fun item => item.1.name == name).map Prod.snd

/-- What tables say of the words that have been entered in them. -/
structure Lists (tables : WordTables) (words : List Word) : Prop where
  size : tables.size = words.length
  byKey : ∀ key id, tables.byKey[key]? = some id ↔ words[id]?.map Word.key = some key
  byName : ∀ name, tables.byName.getD name [] = placesOf words name

theorem lists_nil : Lists {} [] where
  size := rfl
  byKey := by simp
  byName := by simp [placesOf]

theorem Lists.mem_byKey (h : tables.Lists words) (key : String × String) :
    key ∈ tables.byKey ↔ key ∈ words.map Word.key := by
  rw [← Std.ExtTreeMap.isSome_getElem?_iff_mem, Option.isSome_iff_exists, List.mem_iff_getElem?]
  simp only [h.byKey, List.getElem?_map]

theorem placesOf_concat (words : List Word) (word : Word) (name : String) :
    placesOf (words ++ [word]) name =
      if word.name = name then placesOf words name ++ [words.length] else placesOf words name := by
  rw [placesOf, placesOf, List.zipIdx_append, List.filter_append, List.map_append]
  by_cases hname : word.name = name <;> simp [hname]

theorem key_concat (words : List Word) (word : Word) (key : String × String) (id : Nat) :
    (words ++ [word])[id]?.map Word.key = some key ↔
      words[id]?.map Word.key = some key ∨ id = words.length ∧ word.key = key := by
  rcases Nat.lt_trichotomy id words.length with hlt | heq | hgt
  · rw [List.getElem?_append_left hlt]
    simp [Nat.ne_of_lt hlt]
  · subst heq
    simp
  · have hlater : (words ++ [word])[id]? = none := by
      apply List.getElem?_eq_none
      rw [List.length_append, List.length_singleton]
      exact hgt
    rw [hlater, List.getElem?_eq_none (Nat.le_of_lt hgt)]
    simp [Nat.ne_of_gt hgt]

theorem Lists.enter (h : tables.Lists words) (hfresh : word.key ∉ words.map Word.key) :
    (tables.enter word).Lists (words ++ [word]) where
  size := by
    rw [WordTables.enter, h.size, List.length_append]
    rfl
  byKey := by
    intro key id
    simp only [WordTables.enter, Std.ExtTreeMap.getElem?_insert, Std.LawfulEqCmp.compare_eq_iff_eq]
    rw [key_concat, ← h.byKey, h.size]
    by_cases hkey : word.key = key
    · subst hkey
      have hold : tables.byKey[word.key]? = none := by
        apply Std.ExtTreeMap.getElem?_eq_none
        rw [h.mem_byKey]
        exact hfresh
      rw [if_pos rfl, hold]
      simp [eq_comm]
    · rw [if_neg hkey]
      simp [hkey]
  byName := by
    intro name
    simp only [WordTables.enter, Std.ExtTreeMap.getD_insert, Std.LawfulEqCmp.compare_eq_iff_eq]
    rw [placesOf_concat, h.size]
    by_cases hname : word.name = name
    · rw [if_pos hname, if_pos hname, hname, h.byName]
    · rw [if_neg hname, if_neg hname, h.byName]

theorem Lists.insertAll (h : tables.Lists entered) (hd : (entered.map Word.key).Nodup)
    (words : List Word) :
    (((entered ++ words).map Word.key).Nodup ∧ ∃ result, tables.insertAll words = .ok result ∧
        result.Lists (entered ++ words)) ∨
      ∃ before word after, words = before ++ word :: after ∧
        ((entered ++ before).map Word.key).Nodup ∧ word.key ∈ (entered ++ before).map Word.key ∧
        tables.insertAll words = .error (.duplicateWord word.name word.tag) := by
  induction words generalizing tables entered with
  | nil =>
    rw [List.append_nil]
    exact .inl ⟨hd, tables, rfl, h⟩
  | cons word words ih =>
    rw [WordTables.insertAll]
    obtain ⟨hkey, hinsert⟩ | ⟨hkey, hinsert⟩ := tables.insert_cases word
    · rw [h.mem_byKey] at hkey
      refine .inr ⟨[], word, words, rfl, ?_, ?_, by rw [hinsert]⟩
      · rw [List.append_nil]
        exact hd
      · rw [List.append_nil]
        exact hkey
    · rw [h.mem_byKey] at hkey
      have hd' : ((entered ++ [word]).map Word.key).Nodup := by
        rw [List.map_append, List.map_singleton, List.nodup_append]
        refine ⟨hd, by simp, ?_⟩
        intro key hmem other hother heq
        rw [List.mem_singleton.1 hother] at heq
        exact hkey (heq ▸ hmem)
      rw [hinsert]
      obtain ⟨hall, hresult⟩ | ⟨before, last, after, hsplit, hbefore, hlast, herror⟩ :=
        ih (h.enter hkey) hd'
      · rw [List.append_assoc, List.singleton_append] at hall hresult
        exact .inl ⟨hall, hresult⟩
      · rw [List.append_assoc, List.singleton_append] at hbefore hlast
        exact .inr ⟨word :: before, last, after, by rw [hsplit, List.cons_append], hbefore, hlast,
          herror⟩

end WordTables

namespace Lexicon

variable {lexicon : Lexicon} {entry : Entry} {word : Word} {words : List Word}

theorem mem_entries_iff :
    entry ∈ lexicon.entries ↔ lexicon.words[entry.id]? = some entry.word := by
  rw [entries, List.mem_map]
  constructor
  · rintro ⟨⟨word, id⟩, hmem, rfl⟩
    exact List.mk_mem_zipIdx_iff_getElem?.1 hmem
  · intro h
    exact ⟨(entry.word, entry.id), List.mk_mem_zipIdx_iff_getElem?.2 h, rfl⟩

theorem mem_withTags_iff {tags : NameSet} :
    entry ∈ lexicon.withTags tags ↔
      lexicon.words[entry.id]? = some entry.word ∧ entry.word.tag ∈ tags := by
  rw [withTags, List.mem_filter, mem_entries_iff, Std.ExtTreeSet.contains_iff_mem]

theorem ofWords_ok (h : ofWords words = .ok lexicon) : lexicon.words = words := by
  rw [ofWords] at h
  split at h
  · cases h
  · cases h
    rfl

/-- Words make a lexicon unless one of them has the name and the tag of an earlier one. The first
such word is the one that is reported. -/
theorem ofWords_cases (words : List Word) :
    ((words.map Word.key).Nodup ∧ ∃ lexicon, ofWords words = .ok lexicon) ∨
      ∃ before word after, words = before ++ word :: after ∧ (before.map Word.key).Nodup ∧
        word.key ∈ before.map Word.key ∧
        ofWords words = .error (.duplicateWord word.name word.tag) := by
  have hall := WordTables.lists_nil.insertAll List.nodup_nil words
  simp only [List.nil_append] at hall
  rw [ofWords]
  obtain ⟨hd, result, hresult, _⟩ | ⟨before, word, after, hsplit, hbefore, hword, herror⟩ := hall
  · left
    split
    · rename_i herror
      cases hresult.symm.trans herror
    · exact ⟨hd, _, rfl⟩
  · right
    refine ⟨before, word, after, hsplit, hbefore, hword, ?_⟩
    split
    · rename_i herror'
      cases herror.symm.trans herror'
      rfl
    · rename_i hok
      cases herror.symm.trans hok

theorem exists_ofWords_iff_nodup :
    (∃ lexicon, ofWords words = .ok lexicon) ↔ (words.map Word.key).Nodup := by
  constructor
  · rintro ⟨lexicon, h⟩
    rw [← ofWords_ok h]
    exact Word.nodup_of_repeated? lexicon.distinct
  · intro hd
    obtain ⟨_, hok⟩ | ⟨before, word, after, rfl, _, hword, _⟩ := ofWords_cases words
    · exact hok
    · exact absurd hd (Word.not_nodup_of_repeated hword)

theorem exists_ofWords_iff :
    (∃ lexicon, ofWords words = .ok lexicon) ↔ Word.repeated? [] words = none := by
  constructor
  · rintro ⟨lexicon, h⟩
    rw [← ofWords_ok h]
    exact lexicon.distinct
  · intro hnone
    exact exists_ofWords_iff_nodup.2 (Word.nodup_of_repeated? hnone)

theorem lists_tables (lexicon : Lexicon) : lexicon.tables.Lists lexicon.words := by
  have hd := Word.nodup_of_repeated? lexicon.distinct
  rw [lexicon.listed]
  generalize lexicon.words = words at hd
  obtain ⟨_, result, hresult, hlists⟩ | ⟨before, word, after, rfl, _, hword, _⟩ :=
    WordTables.lists_nil.insertAll List.nodup_nil words
  · rw [WordTables.ofWords, ← (WordTables.insertAll_ok [] (by simp) hresult).2]
    exact hlists
  · exact absurd hd (Word.not_nodup_of_repeated hword)

theorem lookup_eq_some_iff {name tag : String} :
    lexicon.lookup name tag = some word ↔
      word ∈ lexicon.words ∧ word.name = name ∧ word.tag = tag := by
  rw [lookup, Option.bind_eq_some_iff]
  simp only [lexicon.lists_tables.byKey]
  constructor
  · rintro ⟨id, hkey, hplace⟩
    rw [hplace, Option.map_some, Option.some.injEq, Word.key, Prod.mk.injEq] at hkey
    exact ⟨List.mem_of_getElem? hplace, hkey⟩
  · rintro ⟨hmem, rfl, rfl⟩
    obtain ⟨id, hplace⟩ := List.mem_iff_getElem?.1 hmem
    exact ⟨id, by rw [hplace]; rfl, hplace⟩

theorem lookup_of_mem (h : word ∈ lexicon.words) :
    lexicon.lookup word.name word.tag = some word :=
  lookup_eq_some_iff.2 ⟨h, rfl, rfl⟩

theorem lookup_eq_find? (lexicon : Lexicon) (name tag : String) :
    lexicon.lookup name tag =
      lexicon.words.find? fun word => word.name == name && word.tag == tag := by
  cases hfound : lexicon.words.find? fun word => word.name == name && word.tag == tag with
  | some word =>
    rw [lookup_eq_some_iff]
    have hword := List.find?_some hfound
    exact ⟨List.mem_of_find?_eq_some hfound, by simpa using hword⟩
  | none =>
    rw [Option.eq_none_iff_forall_ne_some]
    intro word hword
    obtain ⟨hmem, hname, htag⟩ := lookup_eq_some_iff.1 hword
    have hother := List.find?_eq_none.1 hfound word hmem
    simp [hname, htag] at hother

end Lexicon

end SentenceWalk
