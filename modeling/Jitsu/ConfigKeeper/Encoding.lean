import Jitsu.ConfigKeeper.Canonical

namespace Jitsu.ConfigKeeper

namespace Json

mutual

def texts : Json → List Bytes
  | .null => []
  | .bool _ => []
  | .num literal => [literal]
  | .str value => [value]
  | .arr items => textsOf items
  | .obj fields => textsIn fields

def textsOf : List Json → List Bytes
  | [] => []
  | item :: items => texts item ++ textsOf items

def textsIn : List (Bytes × Json) → List Bytes
  | [] => []
  | (key,value) :: fields => key :: texts value ++ textsIn fields

end

def Sized (v : Json) : Prop := ∀ s ∈ v.texts, s.length < 256 ^ 8

instance (v : Json) : Decidable v.Sized := inferInstanceAs (Decidable (∀ s ∈ v.texts, s.length < 256 ^ 8))

inductive Same : Json → Json → Prop where
  | null : Same .null .null
  | bool (value : Bool) : Same (.bool value) (.bool value)
  | num (literal : Bytes) : Same (.num literal) (.num literal)
  | str (value : Bytes) : Same (.str value) (.str value)
  | arr {xs ys : List Json} (length : xs.length = ys.length)
      (items : ∀ (i : ℕ) x y, xs[i]? = some x → ys[i]? = some y → Same x y) : Same (.arr xs) (.arr ys)
  | obj {fs gs : List (Bytes × Json)}
      (keys : ∀ key, ((decodedMap fs).lookup key).isSome = ((decodedMap gs).lookup key).isSome)
      (values : ∀ key v w, (decodedMap fs).lookup key = some v → (decodedMap gs).lookup key = some w →
        Same v w) : Same (.obj fs) (.obj gs)

theorem parts {P : Json → Prop} (null : P .null) (bool : ∀ value, P (.bool value))
    (num : ∀ literal, P (.num literal)) (str : ∀ value, P (.str value))
    (arr : ∀ items, (∀ x ∈ items, P x) → P (.arr items))
    (obj : ∀ fields, (∀ f ∈ fields, P f.2) → P (.obj fields)) : ∀ v, P v
  | .null => null
  | .bool value => bool value
  | .num literal => num literal
  | .str value => str value
  | .arr items => arr items fun x _ => parts null bool num str arr obj x
  | .obj fields => obj fields fun f _ => parts null bool num str arr obj f.2
termination_by v => sizeOf v
decreasing_by
  · have := List.sizeOf_lt_of_mem ‹x ∈ items›
    simp
    omega
  · have := List.sizeOf_lt_of_mem ‹f ∈ fields›
    obtain ⟨key,value⟩ := f
    simp at this ⊢
    omega

theorem Sized.item {items : List Json} (h : (arr items).Sized) {x : Json} (hx : x ∈ items) : x.Sized := by
  intro s hs
  refine h s ?_
  clear h
  change s ∈ textsOf items
  induction items with
  | nil => cases hx
  | cons item items ih =>
    rw [textsOf,List.mem_append]
    rcases List.mem_cons.mp hx with rfl | hx
    · exact .inl hs
    · exact .inr (ih hx)

theorem mem_textsIn {fields : List (Bytes × Json)} {f : Bytes × Json} (hf : f ∈ fields) {s : Bytes}
    (hs : s = f.1 ∨ s ∈ f.2.texts) : s ∈ textsIn fields := by
  induction fields with
  | nil => cases hf
  | cons g fields ih =>
    obtain ⟨key,value⟩ := g
    rw [textsIn,List.mem_append,List.mem_cons]
    rcases List.mem_cons.mp hf with rfl | hf
    · exact .inl hs
    · exact .inr (ih hf)

end Json

theorem digits_unique {k n m : ℕ} (hn : n < 256 ^ k) (hm : m < 256 ^ k)
    (h : ∀ i < k, n / 256 ^ i % 256 = m / 256 ^ i % 256) : n = m := by
  induction k generalizing n m with
  | zero => omega
  | succ k ih =>
    have hhigh : n / 256 = m / 256 := by
      refine ih (by omega) (by omega) fun i hi => ?_
      have := h (i + 1) (by omega)
      rwa [pow_succ',← Nat.div_div_eq_div_mul,← Nat.div_div_eq_div_mul] at this
    have hlow := h 0 (by omega)
    rw [pow_zero,Nat.div_one,Nat.div_one] at hlow
    omega

theorem lengthPrefix_length (n : ℕ) : (lengthPrefix n).length = 8 := by simp [lengthPrefix]

theorem lengthPrefix_injective {n m : ℕ} (hn : n < 256 ^ 8) (hm : m < 256 ^ 8)
    (h : lengthPrefix n = lengthPrefix m) : n = m := by
  refine digits_unique hn hm fun i hi => ?_
  have hbyte := congrArg (fun l : Bytes => (l[i]?).map UInt8.toNat) h
  simpa [lengthPrefix,List.getElem?_range hi] using hbyte

theorem canonicalString_append {s t r u : Bytes} (hs : s.length < 256 ^ 8) (ht : t.length < 256 ^ 8)
    (h : canonicalString s ++ r = canonicalString t ++ u) : s = t ∧ r = u := by
  unfold canonicalString at h
  rw [List.append_assoc,List.append_assoc] at h
  obtain ⟨hlen,h⟩ := List.append_inj h (by rw [lengthPrefix_length,lengthPrefix_length])
  exact List.append_inj h (lengthPrefix_injective hs ht hlen)

section Fields

variable {V W : Type}

theorem byte_trichotomy (x y : UInt8) : x < y ∨ x = y ∨ y < x := by
  rw [UInt8.lt_iff_toNat_lt,UInt8.lt_iff_toNat_lt,← UInt8.toNat_inj]
  exact Nat.lt_trichotomy ..

theorem precedes_total (a b : Bytes) : precedes a b = true ∨ precedes b a = true := by
  induction a generalizing b with
  | nil => exact .inl rfl
  | cons x xs ih =>
    cases b with
    | nil => exact .inr rfl
    | cons y ys =>
      rcases byte_trichotomy x y with h | rfl | h
      · exact .inl (by simp [precedes,h])
      · rcases ih ys with h | h
        · exact .inl (by simp [precedes,h])
        · exact .inr (by simp [precedes,h])
      · exact .inr (by simp [precedes,h])

theorem precedes_antisymm {a b : Bytes} (h : precedes a b = true) (h' : precedes b a = true) : a = b := by
  induction a generalizing b with
  | nil =>
    cases b with
    | nil => rfl
    | cons => cases h'
  | cons x xs ih =>
    cases b with
    | nil => cases h
    | cons y ys =>
      simp only [precedes,Bool.or_eq_true,decide_eq_true_eq,Bool.and_eq_true] at h h'
      rcases h with h | ⟨rfl,h⟩
      · rcases h' with h' | ⟨rfl,-⟩
        · exact absurd h' (UInt8.lt_asymm h)
        · exact absurd h (UInt8.lt_irrefl _)
      · rcases h' with h' | ⟨-,h'⟩
        · exact absurd h' (UInt8.lt_irrefl _)
        · rw [ih h h']

theorem precedes_trans {a b c : Bytes} (h : precedes a b = true) (h' : precedes b c = true) :
    precedes a c = true := by
  induction a generalizing b c with
  | nil => rfl
  | cons x xs ih =>
    cases b with
    | nil => cases h
    | cons y ys =>
      cases c with
      | nil => cases h'
      | cons z zs =>
        simp only [precedes,Bool.or_eq_true,decide_eq_true_eq,Bool.and_eq_true] at h h' ⊢
        rcases h with h | ⟨rfl,h⟩
        · rcases h' with h' | ⟨rfl,-⟩
          · exact .inl (UInt8.lt_trans h h')
          · exact .inl h
        · exact h'.imp_right fun ⟨he,h'⟩ => ⟨he,ih h h'⟩

theorem put_map (g : V → W) (m : List (Bytes × V)) (key : Bytes) (value : V) :
    (put m key value).map (Prod.map id g) = put (m.map (Prod.map id g)) key (g value) := by
  unfold put
  rw [List.map_append,List.filter_map]
  rfl

theorem decodedMap_map (g : V → W) (fields : List (Bytes × V)) :
    (decodedMap fields).map (Prod.map id g) = decodedMap (fields.map (Prod.map id g)) := by
  unfold decodedMap
  generalize hm : ([] : List (Bytes × V)) = m
  have hm' : ([] : List (Bytes × W)) = m.map (Prod.map id g) := by rw [← hm]; rfl
  rw [hm']
  clear hm hm'
  induction fields generalizing m with
  | nil => rfl
  | cons f fields ih =>
    rw [List.map_cons,List.foldl_cons,List.foldl_cons,ih,put_map]
    rfl

theorem nodup_decodedMap (fields : List (Bytes × V)) : ((decodedMap fields).map Prod.fst).Nodup := by
  unfold decodedMap
  generalize hm : ([] : List (Bytes × V)) = m
  have hn : (m.map Prod.fst).Nodup := by simp [← hm]
  clear hm
  induction fields generalizing m with
  | nil => exact hn
  | cons f fields ih =>
    refine ih _ ?_
    unfold put
    rw [List.map_append,List.nodup_append]
    refine ⟨hn.sublist (List.Sublist.map _ List.filter_sublist),List.nodup_singleton _,fun a ha b hb => ?_⟩
    obtain ⟨e,he,rfl⟩ := List.mem_map.mp ha
    rw [List.mem_singleton.mp hb]
    simpa using (List.mem_filter.mp he).2

theorem mem_decodedMap {fields : List (Bytes × V)} {f : Bytes × V} (h : f ∈ decodedMap fields) :
    f ∈ fields := by
  have hgrow : ∀ (fields m : List (Bytes × V)), f ∈ fields.foldl (fun m f => put m f.1 f.2) m →
      f ∈ m ∨ f ∈ fields := by
    intro fields
    induction fields with
    | nil => exact fun m hm => .inl hm
    | cons g fields ih =>
      intro m hm
      rcases ih _ hm with hm | hm
      · rcases List.mem_append.mp hm with hm | hm
        · exact .inl (List.mem_filter.mp hm).1
        · exact .inr (List.mem_cons.mpr (.inl (List.mem_singleton.mp hm)))
      · exact .inr (List.mem_cons_of_mem _ hm)
  exact (hgrow fields [] h).resolve_left List.not_mem_nil

theorem sortFields_perm (fields : List (Bytes × V)) : (sortFields fields).Perm fields :=
  List.perm_insertionSort ..

theorem sortFields_map (g : V → W) (fields : List (Bytes × V)) :
    (sortFields fields).map (Prod.map id g) = sortFields (fields.map (Prod.map id g)) :=
  List.map_insertionSort _ _ _ _ fun _ _ _ _ => Iff.rfl

theorem sortFields_sorted (fields : List (Bytes × V)) :
    ((sortFields fields).map Prod.fst).Pairwise fun a b => precedes a b = true := by
  rw [List.pairwise_map]
  have htotal : Std.Total (fun a b : Bytes × V => precedes a.1 b.1 = true) :=
    ⟨fun a b => precedes_total a.1 b.1⟩
  have htrans : IsTrans (Bytes × V) (fun a b => precedes a.1 b.1 = true) :=
    ⟨fun _ _ _ => precedes_trans⟩
  exact List.pairwise_insertionSort ..

end Fields

section Codes

open Json

inductive Kind where
  | null | yes | no | num | str | arr | obj
  deriving DecidableEq, Repr

def Kind.tag : Kind → UInt8
  | .null => byte 'N'
  | .yes => byte 'T'
  | .no => byte 'F'
  | .num => byte '#'
  | .str => byte 's'
  | .arr => byte '['
  | .obj => byte '{'

theorem Kind.tag_injective {k k' : Kind} (h : k.tag = k'.tag) : k = k' := by
  revert h
  cases k <;> cases k' <;> decide

theorem Kind.tag_ne_close (k : Kind) : k.tag ≠ byte ']' := by
  cases k <;> decide

def kind : Json → Kind
  | .null => .null
  | .bool value => if value then .yes else .no
  | .num _ => .num
  | .str _ => .str
  | .arr _ => .arr
  | .obj _ => .obj

theorem canonical_head (v : Json) (r : Bytes) : (canonical v ++ r).head? = some (kind v).tag := by
  cases v with
  | bool value => cases value <;> rfl
  | null | num | str | arr | obj => simp [canonical,kind,Kind.tag]

theorem kind_eq {v w : Json} {r s : Bytes} (h : canonical v ++ r = canonical w ++ s) : kind v = kind w :=
  Kind.tag_injective (Option.some.inj
    ((canonical_head v r).symm.trans ((congrArg List.head? h).trans (canonical_head w s))))

inductive SameKind : Json → Json → Prop where
  | null : SameKind .null .null
  | bool (value : Bool) : SameKind (.bool value) (.bool value)
  | num (literal literal' : Bytes) : SameKind (.num literal) (.num literal')
  | str (value value' : Bytes) : SameKind (.str value) (.str value')
  | arr (items items' : List Json) : SameKind (.arr items) (.arr items')
  | obj (fields fields' : List (Bytes × Json)) : SameKind (.obj fields) (.obj fields')

theorem sameKind {v w : Json} (h : kind v = kind w) : SameKind v w := by
  cases v with
  | bool value =>
    cases w with
    | bool value' =>
      obtain rfl : value = value' := by
        revert h
        cases value <;> cases value' <;> simp [kind]
      exact .bool value
    | null | num | str | arr | obj => cases value <;> cases h
  | null | num | str | arr | obj =>
    cases w with
    | bool value' => cases value' <;> cases h
    | null | num | str | arr | obj => first | constructor | cases h

def entries (fields : List (Bytes × Json)) : List (Bytes × Json) := sortFields (decodedMap fields)

def entryCode (e : Bytes × Json) : Bytes := canonicalField (e.1,canonical e.2)

theorem canonicalFields_eq (fields : List (Bytes × Json)) :
    canonicalFields fields = fields.map (Prod.map id canonical) := by
  induction fields with
  | nil => rfl
  | cons f fields ih =>
    obtain ⟨key,value⟩ := f
    rw [canonicalFields,ih]
    rfl

theorem canonical_obj (fields : List (Bytes × Json)) :
    canonical (.obj fields) = byte '{' :: ((entries fields).flatMap entryCode ++ [byte '}']) := by
  rw [canonical,canonicalFields_eq,← decodedMap_map,← sortFields_map,List.flatMap_map]
  rfl

theorem nodup_entries (fields : List (Bytes × Json)) : ((entries fields).map Prod.fst).Nodup :=
  ((sortFields_perm (decodedMap fields)).map Prod.fst).nodup_iff.mpr (nodup_decodedMap fields)

theorem mem_entries {fields : List (Bytes × Json)} {e : Bytes × Json} (h : e ∈ entries fields) : e ∈ fields :=
  mem_decodedMap ((sortFields_perm (decodedMap fields)).mem_iff.mp h)

theorem lookup_eq_some {V : Type} {m : List (Bytes × V)} (hm : (m.map Prod.fst).Nodup) {key : Bytes}
    {value : V} : m.lookup key = some value ↔ (key,value) ∈ m := by
  induction m with
  | nil => simp
  | cons e m ih =>
    obtain ⟨k,v⟩ := e
    rw [List.map_cons,List.nodup_cons] at hm
    rw [List.lookup_cons]
    by_cases hk : key = k
    · subst hk
      have hnot : (key,value) ∉ m := fun h => hm.1 (List.mem_map.mpr ⟨_,h,rfl⟩)
      simp [hnot,eq_comm]
    · simp [hk,ih hm.2,beq_eq_false_iff_ne.mpr hk]

theorem lookup_entries (fields : List (Bytes × Json)) (key : Bytes) :
    (entries fields).lookup key = (decodedMap fields).lookup key := by
  ext value
  rw [lookup_eq_some (nodup_entries fields),lookup_eq_some (nodup_decodedMap fields)]
  exact (sortFields_perm (decodedMap fields)).mem_iff

theorem entries_keys {fs gs : List (Bytes × Json)}
    (h : ∀ key, ((decodedMap fs).lookup key).isSome = ((decodedMap gs).lookup key).isSome) :
    (entries fs).map Prod.fst = (entries gs).map Prod.fst := by
  have hmem (fields : List (Bytes × Json)) (key : Bytes) :
      key ∈ (entries fields).map Prod.fst ↔ ((decodedMap fields).lookup key).isSome = true := by
    rw [← lookup_entries,Option.isSome_iff_exists,List.mem_map]
    constructor
    · rintro ⟨⟨key,value⟩,he,rfl⟩
      exact ⟨value,(lookup_eq_some (nodup_entries fields)).mpr he⟩
    · rintro ⟨value,hv⟩
      exact ⟨(key,value),(lookup_eq_some (nodup_entries fields)).mp hv,rfl⟩
  refine List.Perm.eq_of_pairwise (fun _ _ _ _ => precedes_antisymm) (sortFields_sorted _)
    (sortFields_sorted _) ?_
  rw [List.perm_ext_iff_of_nodup (nodup_entries fs) (nodup_entries gs)]
  intro key
  rw [hmem,hmem,h]

theorem canonicalItems_congr {xs ys : List Json} (hlen : xs.length = ys.length)
    (h : ∀ (i : ℕ) x y, xs[i]? = some x → ys[i]? = some y → canonical x = canonical y) :
    canonicalItems xs = canonicalItems ys := by
  induction xs generalizing ys with
  | nil => rw [List.length_eq_zero_iff.mp hlen.symm]
  | cons x xs ih =>
    cases ys with
    | nil => cases hlen
    | cons y ys =>
      have htail := ih (Nat.succ.inj hlen) (fun i x y hx hy => h (i + 1) x y hx hy)
      rw [canonicalItems,canonicalItems,h 0 x y rfl rfl,htail]

theorem entryCodes_congr {es es' : List (Bytes × Json)} (hkeys : es.map Prod.fst = es'.map Prod.fst)
    (h : ∀ e ∈ es, ∀ e' ∈ es', e.1 = e'.1 → canonical e.2 = canonical e'.2) :
    es.flatMap entryCode = es'.flatMap entryCode := by
  induction es generalizing es' with
  | nil => rw [List.map_eq_nil_iff.mp hkeys.symm]
  | cons e es ih =>
    cases es' with
    | nil => cases hkeys
    | cons e' es' =>
      rw [List.map_cons,List.map_cons,List.cons.injEq] at hkeys
      have htail := ih hkeys.2
        (fun a ha b hb => h a (List.mem_cons_of_mem e ha) b (List.mem_cons_of_mem e' hb))
      have hvalue := h e List.mem_cons_self e' List.mem_cons_self hkeys.1
      rw [List.flatMap_cons,List.flatMap_cons,htail,entryCode,entryCode,hkeys.1,hvalue]

theorem Json.Same.canonical_eq {v w : Json} (h : Same v w) : canonical v = canonical w := by
  induction h with
  | null | bool | num | str => rfl
  | arr hlen _ ih => rw [canonical,canonical,canonicalItems_congr hlen ih]
  | @obj fs gs hkeys _ ih =>
    have hlookup {fields : List (Bytes × Json)} {e : Bytes × Json} (he : e ∈ entries fields) :
        (decodedMap fields).lookup e.1 = some e.2 := by
      rw [← lookup_entries]
      exact (lookup_eq_some (nodup_entries fields)).mpr he
    rw [canonical_obj,canonical_obj,entryCodes_congr (entries_keys hkeys)]
    intro e he e' he' hk
    exact ih e.1 e.2 e'.2 (hlookup he) (hk ▸ hlookup he')

def Apart (v : Json) : Prop :=
  ∀ w r s, v.Sized → w.Sized → canonical v ++ r = canonical w ++ s → Same v w ∧ r = s

theorem items_apart {xs ys : List Json} {r s : Bytes} (hxs : ∀ x ∈ xs, Apart x)
    (hsx : ∀ x ∈ xs, x.Sized) (hsy : ∀ y ∈ ys, y.Sized)
    (h : canonicalItems xs ++ r = canonicalItems ys ++ s) : List.Forall₂ Same xs ys ∧ r = s := by
  have hclose (x : Json) (t u : Bytes) : byte ']' :: t ≠ canonical x ++ u := by
    intro he
    have hhead := (congrArg List.head? he).trans (canonical_head x u)
    exact (kind x).tag_ne_close (Option.some.inj hhead).symm
  induction xs generalizing ys with
  | nil =>
    cases ys with
    | nil =>
      rw [canonicalItems] at h
      exact ⟨.nil,(List.cons.inj h).2⟩
    | cons y ys =>
      rw [canonicalItems,canonicalItems,List.append_assoc] at h
      exact absurd h (hclose y _ _)
  | cons x xs ih =>
    cases ys with
    | nil =>
      rw [canonicalItems,canonicalItems,List.append_assoc] at h
      exact absurd h.symm (hclose x _ _)
    | cons y ys =>
      rw [canonicalItems,canonicalItems,List.append_assoc,List.append_assoc] at h
      obtain ⟨hsame,hrest⟩ := hxs x List.mem_cons_self y _ _ (hsx x List.mem_cons_self)
        (hsy y List.mem_cons_self) h
      obtain ⟨hall,hr⟩ := ih (fun z hz => hxs z (List.mem_cons_of_mem x hz))
        (fun z hz => hsx z (List.mem_cons_of_mem x hz)) (fun z hz => hsy z (List.mem_cons_of_mem y hz))
        (List.cons.inj hrest).2
      exact ⟨.cons hsame hall,hr⟩

structure Bounded (e : Bytes × Json) : Prop where
  key : e.1.length < 256 ^ 8
  value : e.2.Sized

theorem Json.Sized.bounded {fields : List (Bytes × Json)} (h : (obj fields).Sized) {e : Bytes × Json}
    (he : e ∈ entries fields) : Bounded e where
  key := h e.1 (mem_textsIn (mem_entries he) (.inl rfl))
  value s hs := h s (mem_textsIn (mem_entries he) (.inr hs))

theorem entries_apart {es es' : List (Bytes × Json)} {r s : Bytes} (hes : ∀ e ∈ es, Apart e.2)
    (hb : ∀ e ∈ es, Bounded e) (hb' : ∀ e ∈ es', Bounded e)
    (h : es.flatMap entryCode ++ byte '}' :: r = es'.flatMap entryCode ++ byte '}' :: s) :
    List.Forall₂ (fun e e' => e.1 = e'.1 ∧ Same e.2 e'.2) es es' ∧ r = s := by
  have hcode (e : Bytes × Json) (es : List (Bytes × Json)) (t : Bytes) :
      (e :: es).flatMap entryCode ++ t =
        byte ',' :: (canonicalString e.1 ++ byte ':' :: (canonical e.2 ++ (es.flatMap entryCode ++ t))) := by
    simp [entryCode,canonicalField]
  have hclose : byte '}' ≠ byte ',' := by decide
  induction es generalizing es' with
  | nil =>
    cases es' with
    | nil => exact ⟨.nil,(List.cons.inj h).2⟩
    | cons e' es' =>
      rw [hcode] at h
      exact absurd (List.cons.inj h).1 hclose
  | cons e es ih =>
    cases es' with
    | nil =>
      rw [hcode] at h
      exact absurd (List.cons.inj h).1.symm hclose
    | cons e' es' =>
      rw [hcode,hcode] at h
      have hbe := hb e List.mem_cons_self
      have hbe' := hb' e' List.mem_cons_self
      obtain ⟨hkey,hrest⟩ := canonicalString_append hbe.key hbe'.key (List.cons.inj h).2
      obtain ⟨hsame,hrest⟩ := hes e List.mem_cons_self e'.2 _ _ hbe.value hbe'.value (List.cons.inj hrest).2
      obtain ⟨hall,hr⟩ := ih (fun z hz => hes z (List.mem_cons_of_mem e hz))
        (fun z hz => hb z (List.mem_cons_of_mem e hz)) (fun z hz => hb' z (List.mem_cons_of_mem e' hz)) hrest
      exact ⟨.cons ⟨hkey,hsame⟩ hall,hr⟩

theorem same_obj {fs gs : List (Bytes × Json)}
    (h : List.Forall₂ (fun e e' => e.1 = e'.1 ∧ Same e.2 e'.2) (entries fs) (entries gs)) :
    Same (.obj fs) (.obj gs) := by
  have hrel {es es' : List (Bytes × Json)} (h : List.Forall₂ (fun e e' => e.1 = e'.1 ∧ Same e.2 e'.2) es es')
      (key : Bytes) : Option.Rel Same (es.lookup key) (es'.lookup key) := by
    induction h with
    | nil => exact .none
    | @cons e e' es es' he _ ih =>
      obtain ⟨k,v⟩ := e
      obtain ⟨k',v'⟩ := e'
      obtain ⟨rfl,hv⟩ := he
      rw [List.lookup_cons,List.lookup_cons]
      cases key == k with
      | true => exact .some hv
      | false => exact ih
  have hpair {a b : Option Json} (h : Option.Rel Same a b) :
      a.isSome = b.isSome ∧ ∀ v w, a = some v → b = some w → Same v w := by
    cases h with
    | none => exact ⟨rfl,nofun⟩
    | some hv =>
      refine ⟨rfl,fun _ _ h h' => ?_⟩
      cases h
      cases h'
      exact hv
  constructor
  · intro key
    rw [← lookup_entries fs,← lookup_entries gs]
    exact (hpair (hrel h key)).1
  · intro key v w hv hw
    rw [← lookup_entries] at hv hw
    exact (hpair (hrel h key)).2 v w hv hw

theorem same_arr {xs ys : List Json} (h : List.Forall₂ Same xs ys) : Same (.arr xs) (.arr ys) := by
  refine .arr h.length_eq fun i x y hx hy => ?_
  obtain ⟨hi,rfl⟩ := List.getElem?_eq_some_iff.mp hx
  obtain ⟨hi',rfl⟩ := List.getElem?_eq_some_iff.mp hy
  exact h.get hi hi'

theorem canonical_apart (v : Json) : Apart v := by
  induction v using Json.parts with
  | null =>
    intro w r s _ _ h
    cases sameKind (kind_eq h)
    exact ⟨.null,(List.cons.inj h).2⟩
  | bool value =>
    intro w r s _ _ h
    cases sameKind (kind_eq h)
    exact ⟨.bool value,(List.cons.inj h).2⟩
  | num literal =>
    intro w r s hv hw h
    cases sameKind (kind_eq h) with
    | num _ literal' =>
      obtain ⟨rfl,hr⟩ := canonicalString_append (hv _ List.mem_cons_self) (hw _ List.mem_cons_self)
        (List.cons.inj h).2
      exact ⟨.num literal,hr⟩
  | str value =>
    intro w r s hv hw h
    cases sameKind (kind_eq h) with
    | str _ value' =>
      obtain ⟨rfl,hr⟩ := canonicalString_append (hv _ List.mem_cons_self) (hw _ List.mem_cons_self)
        (List.cons.inj h).2
      exact ⟨.str value,hr⟩
  | arr items ih =>
    intro w r s hv hw h
    cases sameKind (kind_eq h) with
    | arr _ items' =>
      obtain ⟨hall,hr⟩ := items_apart ih (fun _ => hv.item) (fun _ => hw.item) (List.cons.inj h).2
      exact ⟨same_arr hall,hr⟩
  | obj fields ih =>
    intro w r s hv hw h
    cases sameKind (kind_eq h) with
    | obj _ fields' =>
      rw [canonical_obj,canonical_obj,List.cons_append,List.cons_append,List.append_assoc,
        List.append_assoc] at h
      obtain ⟨hall,hr⟩ := entries_apart (fun e he => ih e (mem_entries he)) (fun _ => hv.bounded)
        (fun _ => hw.bounded) (List.cons.inj h).2
      exact ⟨same_obj hall,hr⟩

end Codes

theorem canonical_encodes_values (v w : Json) (hv : v.Sized) (hw : w.Sized) :
    (canonical v = canonical w ↔ v.Same w) ∧ (canonical v <+: canonical w → canonical v = canonical w) := by
  have happart {r s : Bytes} (h : canonical v ++ r = canonical w ++ s) : v.Same w :=
    (canonical_apart v w r s hv hw h).1
  refine ⟨⟨fun h => ?_,Json.Same.canonical_eq⟩,fun ⟨t,ht⟩ => ?_⟩
  · exact happart (r := []) (s := []) (by rw [h])
  · exact (happart (s := []) (ht.trans (List.append_nil _).symm)).canonical_eq

def idRow : Json := .obj [(idKey,.str [byte 'a']),([byte 'v'],.num [byte '1'])]

def reorderedRow : Json := .obj [([byte 'v'],.num [byte '1']),(idKey,.str [byte 'a'])]

theorem canonical_encodes_values_reordered :
    (canonical idRow = canonical reorderedRow ↔ idRow.Same reorderedRow) ∧
      (canonical idRow <+: canonical reorderedRow → canonical idRow = canonical reorderedRow) :=
  canonical_encodes_values idRow reorderedRow (by decide) (by decide)

end Jitsu.ConfigKeeper
