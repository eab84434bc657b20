import Jitsu.Warehouse.PrimaryKey

namespace Jitsu.Warehouse

open Lib Program Program.Prog

variable {F T : Type}

namespace DedupSettings

variable {cfg : DedupSettings F T} {vs : Set (Value F T)} {u v w : Value F T}

inductive NatLe (cfg : DedupSettings F T) : Value F T → Value F T → Prop where
  | null (v : Value F T) : NatLe cfg .null v
  | string {a b : String} (h : a ≤ b) : NatLe cfg (.string a) (.string b)
  | int {i j : ℤ} (h : i ≤ j) : NatLe cfg (.int .int64 i) (.int .int64 j)
  | float {f g : F} {x y : ℤ} (hf : cfg.rank f = some x) (hg : cfg.rank g = some y) (h : x ≤ y) :
    NatLe cfg (.float .float64 f) (.float .float64 g)
  | time {t u : T} (h : cfg.unixNano t ≤ cfg.unixNano u) : NatLe cfg (.time t) (.time u)

structure DiscValues (cfg : DedupSettings F T) (vs : Set (Value F T)) : Prop where
  kind : ∃ kind : KeyKind, kind ≠ .bool ∧ ∀ v ∈ vs, v = .null ∨ kind.Holds v
  narrow : ∀ i j, .int .int64 i ∈ vs → .int .int64 j ∈ vs → i - j < 2 ^ 63
  ordered : ∀ f, .float .float64 f ∈ vs → (cfg.rank f).isSome

theorem compareStrings_nonneg (a b : String) : 0 ≤ compareStrings a b ↔ b ≤ a := by
  unfold compareStrings
  rcases lt_trichotomy a b with h | h | h
  · simp [h]
  · simp [h]
  · simp [h.le,h.not_gt,h.ne']

theorem compareTimes_nonneg (a b : T) : 0 ≤ cfg.compareTimes a b ↔ cfg.unixNano b ≤ cfg.unixNano a := by
  unfold compareTimes
  split
  · omega
  · split <;> omega

theorem compareFloats_nonneg {a b : F} {x y : ℤ} (ha : cfg.rank a = some x) (hb : cfg.rank b = some y) :
    0 ≤ cfg.compareFloats a b ↔ y ≤ x := by
  unfold compareFloats
  rw [ha,hb]
  dsimp only
  split
  · omega
  · split <;> omega

theorem bmod_of_narrow {d : ℤ} (hlow : -2 ^ 63 < d) (hhigh : d < 2 ^ 63) : d.bmod (2 ^ 64) = d := by
  rw [Int.bmod_eq_of_le (by omega) (by omega)]

theorem DiscValues.compareAny (h : cfg.DiscValues vs) (hv : v ∈ vs) (hw : w ∈ vs) :
    ∃ c, cfg.compareAny v w = some c ∧ (0 ≤ c ↔ cfg.NatLe w v) := by
  obtain ⟨kind,hbool,hkind⟩ := h.kind
  rcases hkind v hv with rfl | hkv
  · rcases hkind w hw with rfl | hkw
    · exact ⟨0,rfl,fun _ => .null _,fun _ => le_rfl⟩
    · cases hkw <;> exact ⟨-1,rfl,fun h => absurd h (by decide),nofun⟩
  · rcases hkind w hw with rfl | hkw
    · cases hkv <;> exact ⟨1,rfl,fun _ => .null _,fun _ => by decide⟩
    · cases hkv with
      | string a =>
        cases hkw with
        | string b =>
          exact ⟨_,rfl,(compareStrings_nonneg a b).trans ⟨.string,fun h => by cases h; assumption⟩⟩
      | int i =>
        cases hkw with
        | int j =>
          have hij := h.narrow i j hv hw
          have hji := h.narrow j i hw hv
          refine ⟨_,rfl,?_⟩
          rw [bmod_of_narrow (by omega) hij,Int.sub_nonneg]
          exact ⟨.int,fun h => by cases h; assumption⟩
      | float f =>
        cases hkw with
        | float g =>
          obtain ⟨x,hx⟩ := Option.isSome_iff_exists.mp (h.ordered f hv)
          obtain ⟨y,hy⟩ := Option.isSome_iff_exists.mp (h.ordered g hw)
          refine ⟨_,rfl,(compareFloats_nonneg hx hy).trans ⟨.float hy hx,fun h => ?_⟩⟩
          cases h with
          | float hg hf hle =>
            cases hx.symm.trans hf
            cases hy.symm.trans hg
            exact hle
      | bool b => exact absurd rfl hbool
      | time t =>
        cases hkw with
        | time u =>
          exact ⟨_,rfl,(compareTimes_nonneg t u).trans ⟨.time,fun h => by cases h; assumption⟩⟩

theorem DiscValues.total (h : cfg.DiscValues vs) (hv : v ∈ vs) (hw : w ∈ vs) :
    cfg.NatLe v w ∨ cfg.NatLe w v := by
  obtain ⟨kind,hbool,hkind⟩ := h.kind
  rcases hkind v hv with rfl | hkv
  · exact .inl (.null w)
  · rcases hkind w hw with rfl | hkw
    · exact .inr (.null v)
    · cases hkv with
      | string a =>
        cases hkw with
        | string b => exact (le_total a b).imp .string .string
      | int i =>
        cases hkw with
        | int j => exact (le_total i j).imp .int .int
      | float f =>
        cases hkw with
        | float g =>
          obtain ⟨x,hx⟩ := Option.isSome_iff_exists.mp (h.ordered f hv)
          obtain ⟨y,hy⟩ := Option.isSome_iff_exists.mp (h.ordered g hw)
          exact (le_total x y).imp (.float hx hy) (.float hy hx)
      | bool b => exact absurd rfl hbool
      | time t =>
        cases hkw with
        | time u => exact (le_total (cfg.unixNano t) (cfg.unixNano u)).imp .time .time

theorem NatLe.trans (h : cfg.NatLe u v) (h' : cfg.NatLe v w) : cfg.NatLe u w := by
  cases h with
  | null => exact .null w
  | string h =>
    cases h' with
    | string h' => exact .string (h.trans h')
  | int h =>
    cases h' with
    | int h' => exact .int (h.trans h')
  | float hf hg h =>
    cases h' with
    | float hg' hk h' =>
      cases hg.symm.trans hg'
      exact .float hf hk (h.trans h')
  | time h =>
    cases h' with
    | time h' => exact .time (h.trans h')

def Precedes (cfg : DedupSettings F T) (a b : Object F T) : Prop :=
  ∀ col, cfg.discriminatorColumn = some col → cfg.NatLe (a.getN col) (b.getN col)

structure Regular (cfg : DedupSettings F T) (lines : List (Object F T)) : Prop where
  length : lines.length ≤ 2 ^ 32
  keyed : cfg.KeyedLines lines
  discriminated : ∀ col, cfg.discriminatorColumn = some col → ∀ a ∈ lines,
    cfg.DiscValues { v | ∃ b ∈ lines, cfg.tuple b = cfg.tuple a ∧ b.getN col = v }

structure Deduplicated (cfg : DedupSettings F T) (f : BatchFile F T) : Prop where
  one : ∀ a ∈ f.lines, ∃! n, ∃ b, f.lines[n]? = some b ∧ n ∉ f.skipLines ∧ cfg.tuple b = cfg.tuple a
  best : ∀ n a, f.lines[n]? = some a → n ∉ f.skipLines → ∀ i b, f.lines[i]? = some b →
    cfg.tuple b = cfg.tuple a → cfg.Precedes b a ∧ (cfg.Precedes a b → i ≤ n)
  skipped : ∀ i ∈ f.skipLines, ∃ n a b, f.lines[i]? = some a ∧ f.lines[n]? = some b ∧ n ∉ f.skipLines ∧
    cfg.tuple b = cfg.tuple a
  kept : f.kept = (f.lines.zipIdx.filter fun line => line.2 ∉ f.skipLines).map Prod.fst

section Lines

variable {lines sub : List (Object F T)} {a b x : Object F T} {s s' : DedupState F T} {col : String}

theorem Regular.mono (h : cfg.Regular lines) (hs : sub.Sublist lines) : cfg.Regular sub := by
  refine ⟨hs.length_le.trans h.length,h.keyed.mono fun a ha => hs.subset ha,fun col hcol a ha => ?_⟩
  obtain ⟨⟨kind,hbool,hkind⟩,hnarrow,hordered⟩ := h.discriminated col hcol a (hs.subset ha)
  have hmem {v : Value F T} (hv : v ∈ { v | ∃ b ∈ sub, cfg.tuple b = cfg.tuple a ∧ b.getN col = v }) :
      v ∈ { v | ∃ b ∈ lines, cfg.tuple b = cfg.tuple a ∧ b.getN col = v } := by
    obtain ⟨b,hb,heq⟩ := hv
    exact ⟨b,hs.subset hb,heq⟩
  exact ⟨⟨kind,hbool,fun v hv => hkind v (hmem hv)⟩,fun i j hi hj => hnarrow i j (hmem hi) (hmem hj),
    fun f hf => hordered f (hmem hf)⟩

theorem Regular.same (h : cfg.Regular lines) (hp : cfg.Prints) (ha : a ∈ lines) (hb : b ∈ lines)
    (hkey : cfg.getPKValue a = cfg.getPKValue b) : cfg.tuple a = cfg.tuple b :=
  (h.keyed.getPKValue_inj hp ha hb).mp hkey

theorem Regular.ranks (h : cfg.Regular lines) (hp : cfg.Prints) :
    Ranks cfg.getPKValue cfg.Precedes lines := by
  refine ⟨fun a ha b hb hkey => ?_,fun a _ b _ c _ _ _ hab hbc col hcol => (hab col hcol).trans (hbc col hcol)⟩
  cases hcol : cfg.discriminatorColumn with
  | none =>
    refine .inl fun col h => ?_
    cases hcol.symm.trans h
  | some col =>
    have htotal := (h.discriminated col hcol a ha).total ⟨a,ha,rfl,rfl⟩ ⟨b,hb,(h.same hp ha hb hkey).symm,rfl⟩
    refine htotal.imp (fun hle c hc => ?_) fun hle c hc => ?_
    · cases hcol.symm.trans hc
      exact hle
    · cases hcol.symm.trans hc
      exact hle

def best (cfg : DedupSettings F T) (s : DedupState F T) (key : Option String) : Option ℕ :=
  key.bind fun pk => match cfg.discriminatorColumn with
    | none => s.linesByPK.get pk
    | some _ => (s.linesByPKDisc.get pk).map (·.lineNumber)

structure Tracked (cfg : DedupSettings F T) (lines : List (Object F T)) (s : DedupState F T) : Prop where
  winners : Winners cfg.getPKValue cfg.Precedes lines (cfg.best s) s.skipLines
  discriminators : ∀ col, cfg.discriminatorColumn = some col → ∀ pk line, s.linesByPKDisc.get pk = some line →
    ∃ a, lines[line.lineNumber]? = some a ∧ a.getN col = line.discriminator

theorem tracked_nil (hpk : s.linesByPK = .empty) (hdisc : s.linesByPKDisc = .empty) (hskip : s.skipLines = ∅) :
    cfg.Tracked [] s := by
  have hbest : cfg.best s = fun _ => none := by
    funext key
    unfold best
    rw [hpk,hdisc]
    cases key with
    | none => rfl
    | some pk => cases cfg.discriminatorColumn <;> rfl
  refine ⟨?_,fun col _ pk line h => ?_⟩
  · rw [hbest,hskip]
    exact .nil
  · rw [hdisc] at h
    cases h

theorem getPKValue_isSome (a : Object F T) : ∃ pk, cfg.getPKValue a = some pk := by
  rcases cfg.single_or_long with ⟨col,hcol⟩ | hlong
  · exact ⟨_,getPKValue_single hcol a⟩
  · exact ⟨_,getPKValue_long hlong a⟩

variable {pk : String}

theorem Tracked.noteLast (h : cfg.Tracked lines s) (hp : cfg.Prints)
    (hr : cfg.Regular (lines ++ [x])) (hcol : cfg.discriminatorColumn = none)
    (hpk : cfg.getPKValue x = some pk) :
    cfg.Tracked (lines ++ [x]) (noteLast lines.length pk s) := by
  have hnext (key : Option String) : cfg.best (DedupSettings.noteLast lines.length pk s) key =
      if cfg.getPKValue x = key then some lines.length else cfg.best s key := by
    unfold best DedupSettings.noteLast
    rw [hpk,hcol]
    cases key with
    | none => rfl
    | some k => simp [OrderedMap.get_set]
  have hfree (a b : Object F T) : cfg.Precedes a b := fun c hc => by cases hcol.symm.trans hc
  have hbest : cfg.best s (cfg.getPKValue x) = s.linesByPK.get pk := by rw [best,hpk,hcol]; rfl
  refine ⟨?_,fun c hc => by cases hcol.symm.trans hc⟩
  cases hprev : s.linesByPK.get pk with
  | none =>
    rw [hprev] at hbest
    have hskip : (DedupSettings.noteLast lines.length pk s).skipLines = s.skipLines := by
      rw [DedupSettings.noteLast,hprev]
    rw [hskip]
    exact h.winners.first hbest (hfree x x) hnext
  | some n =>
    rw [hprev] at hbest
    have hskip : (DedupSettings.noteLast lines.length pk s).skipLines = insert n s.skipLines := by
      rw [DedupSettings.noteLast,hprev]
    rw [hskip]
    obtain ⟨-,a,ha,-⟩ := h.winners.found _ n hbest
    exact h.winners.replace (hr.ranks hp) hbest ha (hfree a x) hnext

theorem best_disc (hcol : cfg.discriminatorColumn = some col) (pk : String) :
    cfg.best s (some pk) = (s.linesByPKDisc.get pk).map (·.lineNumber) := by
  rw [best,hcol]
  rfl

theorem best_setDisc {v : Value F T} (hcol : cfg.discriminatorColumn = some col)
    (hpk : cfg.getPKValue x = some pk) (hmap : s'.linesByPKDisc = s.linesByPKDisc.set pk ⟨lines.length,v⟩)
    (key : Option String) : cfg.best s' key =
      if cfg.getPKValue x = key then some lines.length else cfg.best s key := by
  rw [hpk]
  cases key with
  | none => rfl
  | some k =>
    rw [best_disc hcol,best_disc hcol,hmap,OrderedMap.get_set]
    by_cases hk : pk = k
    · rw [if_pos hk,if_pos (congrArg some hk)]
      rfl
    · rw [if_neg hk,if_neg fun h => hk (Option.some.inj h)]

theorem Tracked.stored (h : cfg.Tracked lines s) (hcol : cfg.discriminatorColumn = some col)
    (hmap : s'.linesByPKDisc = s.linesByPKDisc.set pk ⟨lines.length,x.getN col⟩) (c : String)
    (hc : cfg.discriminatorColumn = some c) (k : String) (line : DeduplicationLine F T)
    (hline : s'.linesByPKDisc.get k = some line) :
    ∃ a, (lines ++ [x])[line.lineNumber]? = some a ∧ a.getN c = line.discriminator := by
  cases hcol.symm.trans hc
  rw [hmap,OrderedMap.get_set] at hline
  split at hline
  · cases hline
    exact ⟨x,getElem?_concat.mpr (.inr ⟨rfl,rfl⟩),rfl⟩
  · obtain ⟨a,ha,hdisc⟩ := h.discriminators col hcol k line hline
    exact ⟨a,getElem?_concat.mpr (.inl ha),hdisc⟩

theorem Regular.compare (h : cfg.Regular lines) (hp : cfg.Prints) (hcol : cfg.discriminatorColumn = some col)
    (ha : a ∈ lines) (hb : b ∈ lines) (hkey : cfg.getPKValue a = cfg.getPKValue b) :
    ∃ c, cfg.compareAny (a.getN col) (b.getN col) = some c ∧ (0 ≤ c ↔ cfg.Precedes b a) := by
  obtain ⟨c,hc,hle⟩ := (h.discriminated col hcol a ha).compareAny ⟨a,ha,rfl,rfl⟩
    ⟨b,hb,(h.same hp ha hb hkey).symm,rfl⟩
  refine ⟨c,hc,hle.trans ⟨fun h d hd => ?_,fun h => h col hcol⟩⟩
  cases hcol.symm.trans hd
  exact h

variable (h : cfg.Tracked lines s)

include h

theorem Tracked.noteDiscriminator (hp : cfg.Prints)
    (hr : cfg.Regular (lines ++ [x])) (hcol : cfg.discriminatorColumn = some col)
    (hpk : cfg.getPKValue x = some pk)
    (hnote : cfg.noteDiscriminator lines.length pk (x.getN col) s = some s') :
    cfg.Tracked (lines ++ [x]) s' := by
  have hlast : x ∈ lines ++ [x] := List.mem_append_right _ List.mem_cons_self
  have hbest : cfg.best s (cfg.getPKValue x) = (s.linesByPKDisc.get pk).map (·.lineNumber) := by
    rw [hpk,best_disc hcol]
  unfold DedupSettings.noteDiscriminator at hnote
  cases hprev : s.linesByPKDisc.get pk with
  | none =>
    rw [hprev] at hnote hbest
    cases hnote
    refine ⟨h.winners.first hbest ?_ (best_setDisc hcol hpk rfl),h.stored hcol rfl⟩
    exact ((hr.ranks hp).total x hlast x hlast rfl).elim id id
  | some line =>
    rw [hprev] at hnote hbest
    obtain ⟨-,a,ha,hkey⟩ := h.winners.found _ line.lineNumber hbest
    obtain ⟨a',ha',hdisc⟩ := h.discriminators col hcol pk line hprev
    cases ha.symm.trans ha'
    have hmem : a ∈ lines ++ [x] := List.mem_append_left _ (List.mem_of_getElem? ha)
    obtain ⟨c,hc,hle⟩ := hr.compare hp hcol hlast hmem hkey.symm
    rw [hdisc] at hc
    dsimp only at hnote
    rw [hc] at hnote
    dsimp only at hnote
    split at hnote
    · next hpos =>
      cases hnote
      exact ⟨h.winners.replace (hr.ranks hp) hbest ha (hle.mp hpos) (best_setDisc hcol hpk rfl),
        h.stored hcol rfl⟩
    · next hneg =>
      cases hnote
      have hnot : ¬cfg.Precedes a x := fun hpre => hneg (hle.mpr hpre)
      have hpre := ((hr.ranks hp).total x hlast a hmem hkey.symm).resolve_right hnot
      refine ⟨h.winners.keep hbest ha hpre hnot,fun c hc k line hline => ?_⟩
      obtain ⟨b,hb,hdisc⟩ := h.discriminators c hc k line hline
      exact ⟨b,getElem?_concat.mpr (.inl hb),hdisc⟩

theorem Tracked.noteLine (hp : cfg.Prints) (hr : cfg.Regular (lines ++ [x]))
    (hevents : s.eventsInBatch = lines.length % 2 ^ 32) (hnote : cfg.noteLine x s = .ok s') :
    cfg.Tracked (lines ++ [x]) s' := by
  have hline : (s.eventsInBatch + marshallerHeaderRows) % 2 ^ 32 = lines.length := by
    have hlength := hr.length
    rw [List.length_append,List.length_singleton] at hlength
    have hheader : marshallerHeaderRows = 0 := rfl
    omega
  obtain ⟨pk,hpk⟩ := cfg.getPKValue_isSome x
  unfold DedupSettings.noteLine at hnote
  rw [hpk] at hnote
  dsimp only at hnote
  rw [hline] at hnote
  cases hcol : cfg.discriminatorColumn with
  | none =>
    rw [hcol] at hnote
    cases hnote
    exact h.noteLast hp hr hcol hpk
  | some col =>
    rw [hcol] at hnote
    dsimp only at hnote
    split at hnote
    · next t ht =>
      cases hnote
      exact h.noteDiscriminator hp hr hcol hpk ht
    · cases hnote

theorem Tracked.deduplicated {failed : Bool} (hp : cfg.Prints)
    (hr : cfg.Regular lines) :
    cfg.Deduplicated ⟨lines,s.skipLines,failed⟩ := by
  have hkey {a b : Object F T} (ha : a ∈ lines) (hb : b ∈ lines) := hr.keyed.getPKValue_inj hp ha hb
  refine ⟨fun a ha => ?_,fun n a ha hn i b hb htuple => ?_,fun i hi => ?_,?_⟩
  · obtain ⟨n,b,hb,hbk,hn⟩ := h.winners.exists_kept ha
    refine ⟨n,⟨b,hb,hn,(hkey (List.mem_of_getElem? hb) ha).mp hbk⟩,fun m ⟨c,hc,hm,hct⟩ => ?_⟩
    have hck := (hkey (List.mem_of_getElem? hc) ha).mpr hct
    exact ((h.winners.kept hc).mp hm).unique ((h.winners.kept hb).mp hn) hc hb (hck.trans hbk.symm)
  · obtain ⟨a',ha',hbest⟩ := (h.winners.kept ha).mp hn
    cases ha.symm.trans ha'
    exact hbest i b hb ((hkey (List.mem_of_getElem? hb) (List.mem_of_getElem? ha)).mpr htuple)
  · have hlt : i < lines.length := ((h.winners.skipped i).mp hi).1
    have ha := List.getElem?_eq_getElem hlt
    obtain ⟨n,b,hb,hbk,hn⟩ := h.winners.exists_kept (List.mem_of_getElem? ha)
    exact ⟨n,lines[i],b,ha,hb,hn,(hkey (List.mem_of_getElem? hb) (List.mem_of_getElem? ha)).mp hbk⟩
  · refine congrArg (List.map Prod.fst) (List.filter_congr fun line hline => ?_)
    have hlt : line.2 < 2 ^ 32 := by
      exact (List.snd_lt_of_mem_zipIdx hline).trans_le (by simpa using hr.length)
    rw [Nat.mod_eq_of_lt hlt]

end Lines

end DedupSettings

end Jitsu.Warehouse
