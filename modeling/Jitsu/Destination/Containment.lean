import Jitsu.Destination.TypeHints

namespace Jitsu.Destination

open Lib Ingest Engine

theorem hasPrefix_iff {text start : String} :
    hasPrefix text start ↔ ∃ rest, text.toList = start.toList ++ rest := by
  rw [hasPrefix,List.isPrefixOf_iff_prefix]
  exact ⟨fun ⟨rest,h⟩ => ⟨rest,h.symm⟩,fun ⟨rest,h⟩ => ⟨rest,h.symm⟩⟩

theorem hasPrefix_idToSnakeCaseFast {key : String} (h : hasPrefix key sqlTypePrefix) :
    hasPrefix (idToSnakeCaseFast key) sqlTypePrefix := by
  obtain ⟨rest,hrest⟩ := hasPrefix_iff.mp h
  refine hasPrefix_iff.mpr ⟨snakeFrom true rest,?_⟩
  rw [idToSnakeCaseFast_eq,hrest,String.toList_ofList]
  rfl

theorem snakeFrom_plain {text : List Char} (h : ∀ c ∈ text, ¬ c.isUpper ∧ c ≠ ' ') (b : Bool) :
    snakeFrom b text = text := by
  induction text generalizing b with
  | nil => rfl
  | cons c rest ih =>
    obtain ⟨hu,hs⟩ := h c List.mem_cons_self
    rw [snakeFrom,if_neg hu,if_neg hs,ih (fun d hd => h d (List.mem_cons_of_mem _ hd))]

theorem not_hasPrefix_of_head {text : String} {c : Char} {rest : List Char} (h : text.toList = c :: rest)
    (hc : c ≠ '_') : ¬ hasPrefix text sqlTypePrefix := by
  intro hp
  obtain ⟨tail,ht⟩ := hasPrefix_iff.mp hp
  exact hc (List.cons.inj (h.symm.trans ht)).1

theorem toString_digits (n : ℕ) : ∃ c rest, (toString n).toList = c :: rest ∧ c.isDigit := by
  have hlist : (toString n).toList = Nat.toDigits 10 n := String.toList_ofList
  cases hd : Nat.toDigits 10 n with
  | nil => exact absurd hd Nat.toDigits_ne_nil
  | cons c rest =>
    exact ⟨c,rest,hlist.trans hd,Nat.isDigit_of_mem_toDigits (by decide) le_rfl (hd ▸ List.mem_cons_self)⟩

structure Naming (rename : String → String) (convert : Json → Json) : Prop where
  index : ∀ n : ℕ, ¬ hasPrefix (rename (toString n)) sqlTypePrefix
  parse : ∀ v, parseSQLTypeHint (convert v) = parseSQLTypeHint v
  holds : ∀ {ok v}, (agreed rename ok).Holds v → (agreed id ok).Holds (convert v)

theorem isDigit_not {c : Char} (h : c.isDigit) : ¬ c.isUpper ∧ c ≠ ' ' ∧ c ≠ '_' := by
  refine ⟨?_,?_,?_⟩
  · intro hu
    simp only [Char.isDigit,Char.isUpper,Bool.and_eq_true,decide_eq_true_eq,ge_iff_le] at h hu
    exact absurd (UInt32.le_trans hu.1 h.2) (by decide)
  · rintro rfl
    exact absurd h (by decide)
  · rintro rfl
    exact absurd h (by decide)

variable {ok : SQLColumn → Prop}

theorem Naming.original : Naming id id where
  index n := by
    obtain ⟨c,rest,hn,hd⟩ := toString_digits n
    exact not_hasPrefix_of_head hn (isDigit_not hd).2.2
  parse _ := rfl
  holds h := h

theorem agreed.assign {target : Fields} {key : String} {value : Json} (h : (agreed id ok).HoldsFields target)
    (hf : (agreed id ok).field key value) (hv : (agreed id ok).Holds value) :
    (agreed id ok).HoldsFields (assign target key value) := by
  unfold Destination.assign
  split
  · exact h
  · exact h.set hf (fun _ => hv)

mutual

theorem toSnakeCase_holds (v : Json) (h : (agreed idToSnakeCaseFast ok).Holds v) :
    (agreed id ok).Holds (toSnakeCase v) := by
  match v,h with
  | .arr items,h => exact toSnakeItems_holds items h
  | .obj fields,h => exact toSnakeFields_holds fields h [] trivial
  | .strings entries,h => exact fun e he hp => h e he (hasPrefix_idToSnakeCaseFast hp)
  | .null,_ => trivial
  | .bool _,_ => trivial
  | .num _,_ => trivial
  | .str _,_ => trivial

theorem toSnakeItems_holds (items : List Json) (h : (agreed idToSnakeCaseFast ok).HoldsItems items) :
    (agreed id ok).HoldsItems (toSnakeItems items) := by
  match items,h with
  | [],_ => trivial
  | item :: rest,h => exact ⟨toSnakeCase_holds item h.1,toSnakeItems_holds rest h.2⟩

theorem toSnakeFields_holds (fields : List (String × Json))
    (h : (agreed idToSnakeCaseFast ok).HoldsFields fields) (r : Fields) (hr : (agreed id ok).HoldsFields r) :
    (agreed id ok).HoldsFields (toSnakeFields r fields) := by
  match fields,h with
  | [],_ => exact hr
  | (key,value) :: rest,h =>
    refine toSnakeFields_holds rest h.2.2 _ (agreed.assign hr ?_ (toSnakeCase_holds value (h.2.1 trivial)))
    intro hp hint hh
    exact h.1 hp hint (parse_toSnakeCase value ▸ hh)

end

theorem Naming.snake : Naming idToSnakeCaseFast toSnakeCase where
  index n := by
    obtain ⟨c,rest,hn,hd⟩ := toString_digits n
    obtain ⟨hu,hs,hc⟩ := isDigit_not hd
    have hlist : (idToSnakeCaseFast (toString n)).toList = c :: snakeFrom c.isAlpha rest := by
      rw [idToSnakeCaseFast_eq,hn,String.toList_ofList,snakeFrom,if_neg hu,if_neg hs]
    exact not_hasPrefix_of_head hlist hc
  parse := parse_toSnakeCase
  holds h := toSnakeCase_holds _ h

def Yields {α : Type} (P : α → Prop) (e : Except String α) : Prop := ∀ a, e = .ok a → P a

namespace Yields

variable {α β : Type} {P : α → Prop} {Q : β → Prop}

theorem value {a : α} (h : P a) : Yields P (.ok a) := by
  rintro b ⟨⟩
  exact h

theorem failed {err : String} : Yields P (.error err) := nofun

theorem bind {m : Except String α} {f : α → Except String β} (hm : Yields P m)
    (hf : ∀ a, P a → Yields Q (f a)) : Yields Q (m >>= f) := by
  cases m with
  | error err => exact failed
  | ok a => exact hf a (hm a rfl)

theorem foldlM {items : List β} {f : α → β → Except String α} {a : α} (ha : P a)
    (hf : ∀ b ∈ items, ∀ a, P a → Yields P (f a b)) : Yields P (items.foldlM f a) := by
  induction items generalizing a with
  | nil => exact .value ha
  | cons b rest ih =>
    rw [List.forall_mem_cons] at hf
    exact (hf.1 a ha).bind fun _ hnext => ih hnext hf.2

end Yields

abbrev Row (ok : SQLColumn → Prop) (row : Json) : Prop := (agreed id ok).Holds row

def Source (rename : String → String) (ok : SQLColumn → Prop) (source : Option Json) : Prop :=
  ∀ value, source = some value → (agreed rename ok).Holds value

section

variable {js : Engine} {rename : String → String} {convert : Json → Json}

theorem Source.get {fields : Fields} (h : (agreed rename ok).HoldsFields fields) (name : String) :
    Source rename ok (Fields.get fields name) :=
  fun _ hv => (h.get hv).2 trivial

variable {source : Option Json}

theorem Source.property (h : Source rename ok source) (name : String) :
    Source rename ok (property source name) := by
  match source,h with
  | none,_ => nofun
  | some (.obj fields),h => exact Source.get (h _ rfl) name
  | some .null,_ => nofun
  | some (.bool _),_ => nofun
  | some (.num _),_ => nofun
  | some (.str _),_ => nofun
  | some (.arr _),_ => nofun
  | some (.strings _),_ => nofun

theorem Source.or {left right : Option Json} (hl : Source rename ok left) (hr : Source rename ok right) :
    Source rename ok (js.or left right) := by
  unfold Engine.or
  split
  · exact hl
  · exact hr

variable {target : Json}

theorem setProperty_yields {value : Json} {key : String} (ht : Row ok target)
    (hf : (agreed id ok).field key value) (hv : Row ok value) :
    Yields (Row ok) (js.setProperty target key value) := by
  match target,ht with
  | .obj fields,ht => exact .value (agreed.assign ht hf hv)
  | .arr items,ht =>
    intro row hrow
    unfold Engine.setProperty at hrow
    cases hs : js.setItem items key value with
    | error err => simp [hs,Except.map] at hrow
    | ok changed =>
      simp only [hs,Except.map,Except.ok.injEq] at hrow
      subst hrow
      refine Rule.holdsItems_iff.mpr fun item hitem => ?_
      rcases js.setItem_mem hs item hitem with hold | rfl | rfl
      · exact Rule.holdsItems_iff.mp ht item hold
      · exact hv
      · trivial
  | .null,_ => exact .failed
  | .bool _,_ => exact .failed
  | .num _,_ => exact .failed
  | .str _,_ => exact .failed
  | .strings _,_ => exact .failed

section

variable (N : Naming rename convert)

include N

theorem Naming.transferEach (skipped : List String) {source : Fields}
    (hs : (agreed rename ok).HoldsFields source) (ht : Row ok target) :
    Yields (Row ok) (js.transferEach rename convert skipped target source) := by
  induction source generalizing target with
  | nil => exact .value ht
  | cons e rest ih =>
    obtain ⟨k,v⟩ := e
    unfold Engine.transferEach
    split
    · exact ih hs.2.2 ht
    · refine (setProperty_yields ht ?_ (N.holds (hs.2.1 trivial))).bind fun next hn => ih hs.2.2 hn
      intro hp hint hh
      exact hs.1 hp hint (N.parse v ▸ hh)

theorem Naming.indexed {items : List Json}
    (h : (agreed rename ok).HoldsItems items) : (agreed rename ok).HoldsFields (indexed items) := by
  refine Rule.holdsFields_iff.mpr fun e he => ?_
  obtain ⟨⟨item,i⟩,hmem,rfl⟩ := List.mem_map.mp he
  exact ⟨agreed.other (N.index i),fun _ => Rule.holdsItems_iff.mp h item (List.fst_mem_of_mem_zipIdx hmem)⟩

theorem Naming.transferAs (hs : Source rename ok source)
    (skipped : List String) (ht : Row ok target) :
    Yields (Row ok) (js.transferAs rename convert target source skipped) := by
  unfold Engine.transferAs
  split
  · exact .failed
  · exact N.transferEach skipped (hs _ rfl) ht
  · exact N.transferEach skipped (N.indexed (hs _ rfl)) ht
  · exact .value ht

theorem Naming.transferValueAs
    (hs : Source rename ok source) {name : String} (hn : ¬ hasPrefix name sqlTypePrefix)
    (ht : Row ok target) : Yields (Row ok) (js.transferValueAs convert target name source) := by
  unfold Engine.transferValueAs
  split
  · exact .value ht
  · exact setProperty_yields ht (agreed.other hn) (N.holds (hs _ rfl))

end

theorem within_yields {name : String} {f : Json → Except String Json} (ht : Row ok target)
    (hn : ¬ hasPrefix name sqlTypePrefix) (hf : ∀ inner, Row ok inner → Yields (Row ok) (f inner)) :
    Yields (Row ok) (js.within target name f) := by
  have hsource : Source id ok (some target) := by
    rintro _ ⟨⟩
    exact ht
  unfold Engine.within
  split
  · next inner hi =>
    exact (hf inner (hsource.property name inner hi)).bind fun changed hc =>
      setProperty_yields ht (agreed.other hn) hc
  · exact .failed

end

end Jitsu.Destination
