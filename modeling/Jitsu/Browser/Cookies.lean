import Jitsu.Lib.OrderedMap
import Jitsu.Lib.Splitting

namespace Jitsu.Browser

open Lib

abbrev Text := List Char

abbrev Jar := List (Text × Text)

def upToSemicolon (text : Text) : Text := text.takeWhile (· ≠ ';')

def setCookie (jar : Jar) (name val : Text) : Jar := Entries.put name (upToSemicolon val) jar

def removeCookie (jar : Jar) (name : Text) : Jar := Entries.drop name jar

def pair (e : Text × Text) : Text := e.1 ++ '=' :: e.2

def cookieText : Jar → Text
  | [] => []
  | [e] => pair e
  | e :: f :: rest => pair e ++ ';' :: ' ' :: cookieText (f :: rest)

def marker (name : Text) : Text := ';' :: ' ' :: name ++ ['=']

def getCookie (cookie name : Text) : Option Text :=
  match split (marker name) (';' :: ' ' :: cookie) with
  | [_,rest] => some (upToSemicolon rest)
  | _ => none

structure CleanName (name : Text) : Prop where
  equals : '=' ∉ name
  semicolon : ';' ∉ name

structure Clean (jar : Jar) : Prop where
  nodup : (jar.map Prod.fst).Nodup
  names : ∀ e ∈ jar, CleanName e.1
  values : ∀ e ∈ jar, ';' ∉ e.2

theorem semicolon_infix {m : Text} (h : ';' ∉ m) (s rest : Text) :
    (';' :: s) <:+: m ++ rest ↔ (';' :: s) <:+: rest := by
  induction m with
  | nil => exact Iff.rfl
  | cons c m ih =>
    rw [List.mem_cons,not_or] at h
    rw [List.cons_append,List.infix_cons_iff,ih h.2]
    refine or_iff_right fun hstart => h.1 ?_
    obtain ⟨t,ht⟩ := hstart
    exact (List.cons.inj ht).1

def body (jar : Jar) : Text := jar.flatMap (fun e => ';' :: ' ' :: pair e)

theorem cookieText_cons (e : Text × Text) (rest : Jar) : cookieText (e :: rest) = pair e ++ body rest := by
  induction rest generalizing e with
  | nil => exact (List.append_nil _).symm
  | cons f rest ih =>
    rw [cookieText,ih f]
    rfl

variable {name : Text}

theorem marker_prefix_iff (hn : CleanName name) {e : Text × Text} (he : CleanName e.1) (rest : Text) :
    marker name <+: ';' :: ' ' :: pair e ++ rest ↔ e.1 = name := by
  constructor
  · rintro ⟨t,ht⟩
    have hcut : name ++ '=' :: t = e.1 ++ '=' :: (e.2 ++ rest) := by simpa [marker,pair] using ht
    exact (cut_unique hn.equals he.equals hcut).1.symm
  · intro h
    exact ⟨e.2 ++ rest,by simp [marker,pair,h]⟩

variable {jar : Jar}

theorem marker_infix_iff (hn : CleanName name)
    (hnames : ∀ e ∈ jar, CleanName e.1) (hvalues : ∀ e ∈ jar, ';' ∉ e.2) (tail : Text) :
    marker name <:+: body jar ++ tail ↔ name ∈ jar.map Prod.fst ∨ marker name <:+: tail := by
  induction jar with
  | nil => simp [body]
  | cons e rest ih =>
    have hfree : ';' ∉ ' ' :: pair e := by
      have hname := (hnames e List.mem_cons_self).semicolon
      have hvalue := hvalues e List.mem_cons_self
      simp [pair,hname,hvalue]
    have hbody : body (e :: rest) ++ tail = ';' :: (' ' :: pair e ++ (body rest ++ tail)) := by simp [body]
    have hskip := semicolon_infix hfree (' ' :: name ++ ['=']) (body rest ++ tail)
    rw [hbody,List.infix_cons_iff]
    change marker name <+: ';' :: ' ' :: pair e ++ (body rest ++ tail) ∨ _ ↔ _
    rw [marker_prefix_iff hn (hnames e List.mem_cons_self)]
    change e.1 = name ∨ (';' :: (' ' :: name ++ ['='])) <:+: _ ↔ _
    rw [hskip]
    change e.1 = name ∨ marker name <:+: _ ↔ _
    rw [ih (fun f hf => hnames f (List.mem_cons_of_mem _ hf))
      (fun f hf => hvalues f (List.mem_cons_of_mem _ hf)),List.map_cons,List.mem_cons,or_assoc,eq_comm]

theorem upToSemicolon_append {text : Text} (h : ';' ∉ text) (rest : Jar) :
    upToSemicolon (text ++ body rest) = text := by
  have hrest : upToSemicolon (body rest) = [] := by
    cases rest with
    | nil => rfl
    | cons e rest => rfl
  unfold upToSemicolon at hrest ⊢
  have hkeep : ∀ c ∈ text, decide (c ≠ ';') = true := by
    intro c hc
    exact decide_eq_true fun hs => h (hs ▸ hc)
  rw [List.takeWhile_append_of_pos hkeep,hrest,List.append_nil]

theorem getCookie_eq (hj : Clean jar) (hn : CleanName name) :
    getCookie (cookieText jar) name = Entries.find name jar := by
  have hshort : ∀ text : Text, text.length ≤ name.length + 2 → ¬ marker name <:+: text := by
    intro text hlength hin
    have hle := hin.length_le
    simp only [marker,List.length_append,List.length_cons,List.length_nil] at hle
    omega
  have hne : marker name ≠ [] := nofun
  cases jar with
  | nil =>
    unfold getCookie
    rw [split_whole (hshort _ (by simp [cookieText]))]
    rfl
  | cons e rest =>
    have htext : ';' :: ' ' :: cookieText (e :: rest) = body (e :: rest) := by
      rw [cookieText_cons]
      rfl
    unfold getCookie
    rw [htext]
    cases hfind : Entries.find name (e :: rest) with
    | none =>
      have hout : ¬ marker name <:+: body (e :: rest) := by
        have hiff := marker_infix_iff hn hj.names hj.values []
        rw [List.append_nil] at hiff
        rw [hiff,not_or]
        exact ⟨Entries.find_eq_none.mp hfind,hshort [] (Nat.zero_le _)⟩
      rw [split_whole hout]
    | some v =>
      obtain ⟨before,after,hsplit⟩ := List.append_of_mem (Entries.mem_of_find hfind)
      rw [hsplit] at hj ⊢
      have hmem : (name,v) ∈ before ++ (name,v) :: after := by simp
      have hnodup := hj.nodup
      rw [List.map_append,List.map_cons,List.nodup_append] at hnodup
      have hbefore : name ∉ before.map Prod.fst := fun hin => hnodup.2.2 name hin name List.mem_cons_self rfl
      have hafter : name ∉ after.map Prod.fst := (List.nodup_cons.mp hnodup.2.1).1
      have hbody : body (before ++ (name,v) :: after) = body before ++ marker name ++ (v ++ body after) := by
        simp [body,marker,pair]
      have hcut : ¬ marker name <:+: body before ++ (marker name).dropLast := by
        rw [marker_infix_iff hn (fun f hf => hj.names f (List.mem_append_left _ hf))
          (fun f hf => hj.values f (List.mem_append_left _ hf)),not_or]
        exact ⟨hbefore,hshort _ (by simp [marker])⟩
      have hpost : ¬ marker name <:+: v ++ body after := by
        have hskip := semicolon_infix (hj.values _ hmem) (' ' :: name ++ ['=']) (body after)
        have hiff := marker_infix_iff hn
          (fun f hf => hj.names f (List.mem_append_right _ (List.mem_cons_of_mem _ hf)))
          (fun f hf => hj.values f (List.mem_append_right _ (List.mem_cons_of_mem _ hf))) []
        rw [List.append_nil] at hiff
        change ¬ (';' :: (' ' :: name ++ ['='])) <:+: v ++ body after
        rw [hskip]
        change ¬ marker name <:+: body after
        rw [hiff,not_or]
        exact ⟨hafter,hshort [] (Nat.zero_le _)⟩
      rw [hbody,split_two hne hcut hpost]
      exact congrArg some (upToSemicolon_append (hj.values _ hmem) after)

theorem Clean.setCookie (h : Clean jar) (hn : CleanName name) (val : Text) :
    Clean (setCookie jar name val) where
  nodup := Entries.nodup_put h.nodup
  names e he := by
    rcases Entries.mem_put he with rfl | he
    · exact hn
    · exact h.names e he
  values e he := by
    rcases Entries.mem_put he with rfl | he
    · intro hs
      have hkeep := List.mem_takeWhile_imp hs
      simp at hkeep
    · exact h.values e he

theorem Clean.removeCookie (h : Clean jar) (name : Text) : Clean (removeCookie jar name) where
  nodup := Entries.nodup_drop name h.nodup
  names e he := h.names e (List.mem_of_mem_filter he)
  values e he := h.values e (List.mem_of_mem_filter he)

end Jitsu.Browser
