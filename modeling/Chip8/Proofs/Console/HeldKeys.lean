import Chip8.Console.Basic
import Chip8.Proofs.Machine.Coherent
import Mathlib.Algebra.Order.Group.Unbundled.Basic
import Mathlib.Algebra.Order.Ring.Unbundled.Rat
import Mathlib.Data.List.Induction

namespace Chip8

theorem Keypad.keyOf?_eq_some_iff {c : Char} {k : Nibble} :
    keyOf? c = some k ↔ c.toLower = layout[k] := by
  have hinj : ∀ i j : Nibble, layout[i] = layout[j] → i = j := by decide
  constructor
  · intro h
    obtain ⟨i, hi, rfl⟩ := Option.map_eq_some_iff.1 h
    exact (Array.finIdxOf?_eq_some_iff.1 hi).1.symm
  · intro h
    refine Option.map_eq_some_iff.2
      ⟨k, Array.finIdxOf?_eq_some_iff.2 ⟨h.symm, fun j hj heq => ?_⟩, rfl⟩
    exact Nat.ne_of_lt hj (congrArg Fin.val (hinj j k (Eq.trans heq h)))

theorem Keypad.set_of_held {k : Keypad} {key : Nibble} (h : k.held[key] = true) :
    k.set key true = k := by
  have hheld : k.held.set key true key.lt = k.held := by
    have hkey : k.held[key.val] = true := h
    rw [← hkey]
    exact Vector.set_getElem_self key.lt
  simp [set, h, hheld]

def KeyEvent.key? (e : KeyEvent) : Option Nibble :=
  match e.code with
  | .char ch => if ch = 'c' ∧ e.control then none else Keypad.keyOf? ch
  | _ => none

def KeyEvent.press? (e : KeyEvent) (now : Rat) : Option Rat :=
  if e.kind = .release then none else some now

theorem KeyEvent.key?_eq_some_iff {e : KeyEvent} {k : Nibble} :
    e.key? = some k ↔
      ∃ ch, e.code = .char ch ∧ ch.toLower = Keypad.layout[k] ∧ ¬ (ch = 'c' ∧ e.control) := by
  unfold key?
  cases e.code with
  | escape | other => exact iff_of_false nofun fun ⟨_, h, _⟩ => by cases h
  | char ch =>
    simp only [KeyCode.char.injEq, exists_eq_left', ← Keypad.keyOf?_eq_some_iff]
    split
    · next hq => exact iff_of_false nofun fun h => h.2 hq
    · next hq => exact (and_iff_left hq).symm

theorem KeyEvent.key?_eq_none {e : KeyEvent}
    (h : e.code = .escape ∨ e.code = .other ∨ e.code = .char 'c' ∧ e.control ∨
      ∃ ch, e.code = .char ch ∧ ch.toLower ∉ Keypad.layout) : e.key? = none := by
  refine Option.eq_none_iff_forall_ne_some.2 fun k hk => ?_
  obtain ⟨ch, hch, hlayout, hquit⟩ := key?_eq_some_iff.1 hk
  rw [hch] at h
  obtain h | h | ⟨h, hc⟩ | ⟨ch', h, hmem⟩ := h
  · cases h
  · cases h
  · exact hquit ⟨KeyCode.char.inj h, hc⟩
  · obtain rfl := KeyCode.char.inj h
    exact hmem (hlayout ▸ Vector.getElem_mem k.lt)

namespace Machine

def Act.feedsKeypad (a : Act) : Bool :=
  match a.outer? with
  | some (.happen (.keypad (.set _ _))) => true
  | _ => false

variable {m : Machine} {a : Act}

theorem held_undergo {o : Outer} (ha : a.outer? = some o) (hf : a.feedsKeypad = false)
    (d : Devices) : (d.undergo o).keypad.held = d.keypad.held := by
  rw [Act.feedsKeypad, ha] at hf
  match o with
  | .happen (.keypad (.set _ _)) => cases hf
  | .happen (.keypad .interrupt) | .happen (.keypad .resume) => rfl
  | .happen (.timers _) | .happen (.random _) | .wear _ | .rouse => rfl

theorem held_launch (m : Machine) (image : List UInt8) (refusal : Option Clock.Refusal) :
    (m.launch image refusal).1.keypad.held = m.keypad.held := by
  cases he : m.engine with
  | some e => rw [launch_of_running he]
  | none =>
    rw [launch_of_stopped he]
    cases m.devices.screen.crash? with
    | none =>
      dsimp only
      rw [keypad, launched, Devices.keypad_noteAll]
      rfl
    | some c => rfl

theorem held_start (m : Machine) (image : List UInt8) :
    (m.start image).1.keypad.held = m.keypad.held := by
  rw [start_eq_launch]
  exact m.held_launch image none

theorem held_act (hf : a.feedsKeypad = false) : (m.act a).keypad.held = m.keypad.held := by
  cases he : m.engine with
  | none =>
    cases ha : a.starts with
    | true =>
      obtain ⟨image, refusal, rfl⟩ := eq_start_of_starts ha
      exact m.held_launch image refusal
    | false =>
      rw [act_of_stopped he ha]
      cases ho : a.outer? with
      | none => rfl
      | some o => exact held_undergo ho hf m.devices
  | some e =>
    have hd := does_act he a
    revert hd
    generalize m.act a = m'
    intro hd
    cases hd with
    | nothing | begins | sleeps | cancels | stops | closes => rfl
    | outer ho => exact held_undergo ho hf m.devices
    | proceeds =>
      obtain ⟨waiting, asleep, hk⟩ := e.keypad_progress m.devices
      rw [keypad, proceed, Devices.keypad_noteAll, hk]
      rfl
    | fires | wakes => exact congrArg Keypad.held (Devices.keypad_noteAll ..)

end Machine

namespace Console

inductive Input where
  | key (now : Rat) (e : KeyEvent)
  | sweep (now : Rat)
  | frame
  | machine (a : Machine.Act)
  deriving DecidableEq

def handle (c : Console) : Input → Console
  | .key now e => c.handleKey now e
  | .sweep now => c.releaseStale now
  | .frame => c.takeFrame.1
  | .machine a => { c with machine := c.machine.act a }

def handleAll (c : Console) (l : List Input) : Console := l.foldl handle c

namespace Input

def key? : Input → Option Nibble
  | .key _ e => e.key?
  | _ => none

def time? : Input → Option Rat
  | .key now _ | .sweep now => some now
  | _ => none

def press? : Input → Option Rat
  | .key now e => e.press? now
  | _ => none

end Input

structure Undisturbed (l : List Input) : Prop where
  ordered : (l.filterMap Input.time?).Pairwise (· ≤ ·)
  alone : ∀ a, .machine a ∈ l → a.feedsKeypad = false

def latest? (k : Nibble) (l : List Input) : Option Input := l.reverse.find? (·.key? = some k)

def lastPress? (k : Nibble) (l : List Input) : Option Rat := (latest? k l).bind Input.press?

def fresh (now : Rat) (time : Option Rat) : Option Rat := if isStale now time then none else time

theorem handleAll_concat (c : Console) (l : List Input) (i : Input) :
    c.handleAll (l ++ [i]) = (c.handleAll l).handle i := by
  rw [handleAll, List.foldl_append]
  rfl

theorem Undisturbed.of_concat {l : List Input} {i : Input} (h : Undisturbed (l ++ [i])) :
    Undisturbed l := by
  have hordered := h.ordered
  rw [List.filterMap_append] at hordered
  exact ⟨(List.pairwise_append.1 hordered).1,
    fun a ha => h.alone a (List.mem_append_left _ ha)⟩

theorem Undisturbed.le {l : List Input} {i : Input} (h : Undisturbed (l ++ [i])) {now : Rat}
    (hi : i.time? = some now) {t : Rat} (ht : t ∈ l.filterMap Input.time?) : t ≤ now := by
  have hordered := h.ordered
  rw [List.filterMap_append] at hordered
  refine (List.pairwise_append.1 hordered).2.2 t ht now ?_
  exact List.mem_filterMap.2 ⟨i, List.mem_singleton_self i, hi⟩

theorem latest?_concat (k : Nibble) (l : List Input) (i : Input) :
    latest? k (l ++ [i]) = if i.key? = some k then some i else latest? k l := by
  rw [latest?, List.reverse_concat, List.find?_cons]
  by_cases h : i.key? = some k <;> simp [h, latest?]

theorem lastPress?_concat (k : Nibble) (l : List Input) (i : Input) :
    lastPress? k (l ++ [i]) = if i.key? = some k then i.press? else lastPress? k l := by
  rw [lastPress?, latest?_concat]
  split <;> rfl

theorem lastPress?_eq_some_iff {k : Nibble} {l : List Input} {t : Rat} :
    lastPress? k l = some t ↔ ∃ e, latest? k l = some (.key t e) ∧ e.kind ≠ .release := by
  rw [lastPress?, Option.bind_eq_some_iff]
  constructor
  · rintro ⟨i, hi, hpress⟩
    cases i with
    | key now e =>
      rw [Input.press?, KeyEvent.press?] at hpress
      split at hpress
      · cases hpress
      · next hk =>
        obtain rfl := Option.some.inj hpress
        exact ⟨e, hi, hk⟩
    | sweep | frame | machine => cases hpress
  · rintro ⟨e, hi, hk⟩
    exact ⟨.key t e, hi, if_neg hk⟩

theorem isStale_mono {now now' : Rat} (h : now ≤ now') {time : Option Rat}
    (hs : isStale now time = true) : isStale now' time = true := by
  cases time with
  | none => cases hs
  | some t => exact decide_eq_true (lt_of_lt_of_le (of_decide_eq_true hs) (sub_le_sub_right h t))

theorem fresh_eq_some_iff {now t : Rat} {time : Option Rat} :
    fresh now time = some t ↔ time = some t ∧ now - t ≤ 50 := by
  cases time with
  | none => exact iff_of_false (by simp [fresh]) (by simp)
  | some u =>
    have hstale : isStale now (some u) = true ↔ 50 < now - u := decide_eq_true_iff
    rw [fresh, Option.some.injEq]
    split
    · next h =>
      refine iff_of_false (by simp) fun ⟨hu, hle⟩ => ?_
      exact absurd (hu ▸ hstale.1 h) (not_lt.2 hle)
    · next h =>
      rw [Option.some.injEq]
      refine ⟨fun hu => ⟨hu, ?_⟩, And.left⟩
      exact hu ▸ not_lt.1 fun hlt => h (hstale.2 hlt)

variable {c : Console}

def enter (c : Console) (k : Nibble) (time : Option Rat) : Console :=
  { c with
    pressTimes := c.pressTimes.set k time k.lt
    machine := c.machine.setKey k time.isSome }

def Agrees (c : Console) : Prop := ∀ k : Nibble, c.machine.keypad.held[k] = c.pressTimes[k].isSome

theorem pressTimes_enter (c : Console) (j k : Nibble) (time : Option Rat) :
    (c.enter j time).pressTimes[k] = if j = k then time else c.pressTimes[k] := by
  simp only [enter, Nibble.getElem_nibble, Vector.getElem_set, Fin.ext_iff]

theorem Agrees.enter (h : c.Agrees) (j : Nibble) (time : Option Rat) : (c.enter j time).Agrees := by
  intro k
  have hheld : (c.enter j time).machine.keypad.held[k] = _ :=
    c.machine.keypad.held_set j k time.isSome
  rw [hheld, pressTimes_enter]
  split
  · rfl
  · exact h k

theorem handleKey_eq (c : Console) (now : Rat) (e : KeyEvent) :
    ∃ quit, c.handleKey now e =
      { (e.key?.elim c fun k => c.enter k (e.press? now)) with quit } := by
  obtain ⟨code, control, kind⟩ := e
  cases code with
  | escape => exact ⟨true, rfl⟩
  | other => exact ⟨c.quit, rfl⟩
  | char ch =>
    simp only [handleKey, KeyEvent.key?]
    split
    · exact ⟨true, rfl⟩
    · refine ⟨c.quit, ?_⟩
      cases Keypad.keyOf? ch with
      | none => rfl
      | some k => cases kind <;> rfl

theorem pressTimes_handleKey (c : Console) (now : Rat) (e : KeyEvent) (k : Nibble) :
    (c.handleKey now e).pressTimes[k] =
      if e.key? = some k then e.press? now else c.pressTimes[k] := by
  obtain ⟨quit, h⟩ := c.handleKey_eq now e
  rw [h]
  cases e.key? with
  | none => simp
  | some j =>
    have hj := c.pressTimes_enter j k (e.press? now)
    simpa using hj

theorem Agrees.handleKey (h : c.Agrees) (now : Rat) (e : KeyEvent) : (c.handleKey now e).Agrees := by
  obtain ⟨quit, he⟩ := c.handleKey_eq now e
  rw [he]
  cases e.key? with
  | none => exact h
  | some j => exact h.enter j (e.press? now)

theorem releaseIfStale_eq (now : Rat) (c : Console) (k : Nibble) :
    releaseIfStale now c k = if isStale now c.pressTimes[k] then c.enter k none else c := rfl

theorem pressTimes_releaseIfStale (now : Rat) (c : Console) (j k : Nibble) :
    (releaseIfStale now c j).pressTimes[k] =
      if j = k then fresh now c.pressTimes[k] else c.pressTimes[k] := by
  rw [releaseIfStale_eq]
  by_cases hj : j = k
  · subst hj
    rw [if_pos rfl, fresh]
    split
    · rw [pressTimes_enter, if_pos rfl]
    · rfl
  · rw [if_neg hj]
    split
    · rw [pressTimes_enter, if_neg hj]
    · rfl

theorem fresh_fresh (now : Rat) (time : Option Rat) :
    fresh now (fresh now time) = fresh now time := by
  by_cases hs : isStale now time = true
  · have hnone : fresh now time = none := if_pos hs
    rw [hnone]
    rfl
  · have hsame : fresh now time = time := if_neg hs
    rw [hsame, hsame]

theorem pressTimes_foldl_of_not_mem (now : Rat) (c : Console) {js : List Nibble} {k : Nibble}
    (hk : k ∉ js) : (js.foldl (releaseIfStale now) c).pressTimes[k] = c.pressTimes[k] := by
  induction js generalizing c with
  | nil => rfl
  | cons j js ih =>
    obtain ⟨hj, hjs⟩ := List.ne_and_not_mem_of_not_mem_cons hk
    rw [List.foldl_cons, ih (releaseIfStale now c j) hjs, pressTimes_releaseIfStale,
      if_neg (Ne.symm hj)]

theorem pressTimes_foldl_of_mem (now : Rat) (c : Console) {js : List Nibble} {k : Nibble}
    (hk : k ∈ js) : (js.foldl (releaseIfStale now) c).pressTimes[k] = fresh now c.pressTimes[k] := by
  induction js generalizing c with
  | nil => exact absurd hk List.not_mem_nil
  | cons j js ih =>
    rw [List.foldl_cons]
    obtain hmem | hmem := Classical.em (k ∈ js)
    · rw [ih (releaseIfStale now c j) hmem, pressTimes_releaseIfStale]
      split
      · rw [fresh_fresh]
      · rfl
    · obtain rfl := (List.mem_cons.1 hk).resolve_right hmem
      rw [pressTimes_foldl_of_not_mem now _ hmem, pressTimes_releaseIfStale, if_pos rfl]

theorem pressTimes_releaseStale (c : Console) (now : Rat) (k : Nibble) :
    (c.releaseStale now).pressTimes[k] = fresh now c.pressTimes[k] :=
  pressTimes_foldl_of_mem now c (List.mem_finRange k)

theorem Agrees.releaseStale (h : c.Agrees) (now : Rat) : (c.releaseStale now).Agrees := by
  rw [Console.releaseStale]
  generalize List.finRange 16 = js
  induction js generalizing c with
  | nil => exact h
  | cons j js ih =>
    refine ih ?_
    rw [releaseIfStale_eq]
    split
    · exact h.enter j none
    · exact h

structure Knows (l : List Input) (c : Console) : Prop where
  agrees : c.Agrees
  times : ∀ k : Nibble, c.pressTimes[k] = lastPress? k l ∨
    c.pressTimes[k] = none ∧ ∃ now ∈ l.filterMap Input.time?, isStale now (lastPress? k l) = true

theorem knows_start (o : Options) (d : Devices) (image : List UInt8) :
    Knows [] (start o (Machine.new o d).devices image).1 := by
  have hup (k : Nibble) : (Vector.replicate 16 false)[k] = false := by simp
  have htimes (k : Nibble) : (Vector.replicate 16 (none : Option Rat))[k] = none := by simp
  refine ⟨fun k => ?_, fun k => .inl (htimes k)⟩
  have hs : (start o (Machine.new o d).devices image).1.machine.keypad.held = _ :=
    (Machine.new o d).held_start image
  have ht : (start o (Machine.new o d).devices image).1.pressTimes[k] = none := htimes k
  rw [hs, ht]
  exact hup k

theorem Knows.pressTimes_sweep {l : List Input} (h : Knows l c) {now : Rat}
    (hnow : ∀ t ∈ l.filterMap Input.time?, t ≤ now) (k : Nibble) :
    (c.releaseStale now).pressTimes[k] = fresh now (lastPress? k l) := by
  rw [pressTimes_releaseStale]
  obtain ht | ⟨ht, earlier, hmem, hs⟩ := h.times k
  · rw [ht]
  · have hstale : fresh now (lastPress? k l) = none := if_pos (isStale_mono (hnow earlier hmem) hs)
    rw [ht, hstale]
    rfl

theorem Knows.handle {l : List Input} {i : Input} (h : Knows l c) (hl : Undisturbed (l ++ [i])) :
    Knows (l ++ [i]) (c.handle i) := by
  have hother {k : Nibble} (hk : i.key? ≠ some k) :
      c.pressTimes[k] = lastPress? k (l ++ [i]) ∨ c.pressTimes[k] = none ∧
        ∃ now ∈ (l ++ [i]).filterMap Input.time?, isStale now (lastPress? k (l ++ [i])) = true := by
    rw [lastPress?_concat, if_neg hk, List.filterMap_append]
    refine (h.times k).imp_right ?_
    rintro ⟨ht, now, hnow, hs⟩
    exact ⟨ht, now, List.mem_append_left _ hnow, hs⟩
  cases i with
  | key now e =>
    refine ⟨h.agrees.handleKey now e, fun k => ?_⟩
    rw [Console.handle, pressTimes_handleKey]
    by_cases hk : e.key? = some k
    · rw [if_pos hk, lastPress?_concat]
      exact .inl (if_pos hk).symm
    · rw [if_neg hk]
      exact hother hk
  | sweep now =>
    have hnow : now ∈ (l ++ [Input.sweep now]).filterMap Input.time? :=
      List.mem_filterMap.2 ⟨.sweep now, List.mem_append_right l (List.mem_singleton_self _), rfl⟩
    refine ⟨h.agrees.releaseStale now, fun k => ?_⟩
    -- a key that this sweep or one before it finds stale has no press time left
    rw [Console.handle, h.pressTimes_sweep (fun t => hl.le rfl), lastPress?_concat, if_neg nofun]
    by_cases hs : isStale now (lastPress? k l) = true
    · exact .inr ⟨if_pos hs, now, hnow, hs⟩
    · exact .inl (if_neg hs)
  | frame => exact ⟨h.agrees, fun k => hother nofun⟩
  | machine a =>
    have hheld := Machine.held_act (m := c.machine) (hl.alone a (by simp))
    exact ⟨fun k => (congrArg (·[k]) hheld).trans (h.agrees k), fun k => hother nofun⟩

theorem knows_handleAll (o : Options) (d : Devices) (image : List UInt8) {l : List Input}
    (hl : Undisturbed l) :
    Knows l ((start o (Machine.new o d).devices image).1.handleAll l) := by
  induction l using List.reverseRecOn with
  | nil => exact knows_start o d image
  | append_singleton l i ih =>
    rw [handleAll_concat]
    exact (ih hl.of_concat).handle hl

theorem no_key_stuck (o : Options) (d : Devices) (image : List UInt8) (l : List Input)
    (hl : Undisturbed l) :
    let c := (start o (Machine.new o d).devices image).1.handleAll l
    (∀ k : Nibble, c.machine.keypad.held[k] = c.pressTimes[k].isSome) ∧
    (∀ past now, l = past ++ [.sweep now] → ∀ k : Nibble, c.machine.keypad.held[k] = true ↔
      ∃ t e, latest? k past = some (.key t e) ∧ e.kind ≠ .release ∧ now - t ≤ 50) ∧
    (∀ now e, ∀ k : Nibble, e.key? = some k → e.kind ≠ .release →
      c.machine.keypad.held[k] = true →
        (c.handleKey now e).machine.keypad = c.machine.keypad) ∧
    ∀ now e, (e.code = .escape ∨ e.code = .other ∨ e.code = .char 'c' ∧ e.control = true ∨
        ∃ ch, e.code = .char ch ∧ ch.toLower ∉ Keypad.layout) →
      (c.handleKey now e).machine.keypad = c.machine.keypad ∧
        (c.handleKey now e).pressTimes = c.pressTimes := by
  intro c
  have hc : Knows l c := knows_handleAll o d image hl
  refine ⟨hc.agrees, ?_, ?_, ?_⟩
  · rintro past now rfl k
    have hpast := knows_handleAll o d image hl.of_concat
    have hk := hc.agrees k
    have ht : c.pressTimes[k] = fresh now (lastPress? k past) := by
      have hsweep := hpast.pressTimes_sweep (fun t => hl.le rfl) k
      rw [← hsweep]
      exact congrArg (fun c : Console => c.pressTimes[k]) (handleAll_concat _ past (.sweep now))
    rw [hk, ht, Option.isSome_iff_exists]
    simp only [fresh_eq_some_iff, lastPress?_eq_some_iff]
    constructor
    · rintro ⟨t, ⟨e, he, hkind⟩, hle⟩
      exact ⟨t, e, he, hkind, hle⟩
    · rintro ⟨t, e, he, hkind, hle⟩
      exact ⟨t, ⟨e, he, hkind⟩, hle⟩
  · intro now e k he hkind hheld
    obtain ⟨quit, h⟩ := c.handleKey_eq now e
    have htime : e.press? now = some now := if_neg hkind
    rw [h, he, htime]
    exact Keypad.set_of_held hheld
  · intro now e he
    obtain ⟨quit, h⟩ := c.handleKey_eq now e
    rw [h, KeyEvent.key?_eq_none he]
    exact ⟨rfl, rfl⟩

def typing : List Input :=
  [.key 0 ⟨.char 'Q', true, .press⟩, .machine (.move .timer), .key 40 ⟨.char 'q', false, .again⟩,
    .key 45 ⟨.char 'c', true, .press⟩]

theorem no_key_stuck_of_typing :
    let c := (start {} (Machine.new {} {}).devices [0x12, 0x00]).1
    let swept := typing ++ [.sweep 90]
    let sweptAgain := swept ++ [.sweep (181 / 2)]
    Undisturbed swept ∧ (c.handleAll swept).machine.keypad.held[(4 : Nibble)] = true ∧
      Undisturbed sweptAgain ∧
      (c.handleAll sweptAgain).machine.keypad.held[(4 : Nibble)] = false := by
  intro c swept sweptAgain
  have halone : ∀ a, .machine a ∈ typing → a.feedsKeypad = false := by
    intro a ha
    obtain rfl : a = .move .timer := by simpa [typing] using ha
    rfl
  have h : Undisturbed swept := ⟨by decide +kernel, fun a ha => halone a (by simpa [swept] using ha)⟩
  have h' : Undisturbed sweptAgain :=
    ⟨by decide +kernel, fun a ha => halone a (by simpa [sweptAgain, swept] using ha)⟩
  have hlast : latest? 4 typing = some (.key 40 ⟨.char 'q', false, .again⟩) := by decide +kernel
  have hlast' : latest? 4 swept = some (.key 40 ⟨.char 'q', false, .again⟩) := by decide +kernel
  obtain ⟨-, hswept, -⟩ := no_key_stuck {} {} [0x12, 0x00] swept h
  obtain ⟨-, hagain, -⟩ := no_key_stuck {} {} [0x12, 0x00] sweptAgain h'
  refine ⟨h, (hswept typing 90 rfl 4).2 ⟨40, _, hlast, by decide, by decide +kernel⟩, h', ?_⟩
  rw [← Bool.not_eq_true, hagain swept (181 / 2) rfl 4, hlast']
  rintro ⟨t, e, he, -, hle⟩
  obtain ⟨rfl, -⟩ := Input.key.inj (Option.some.inj he)
  exact absurd hle (by decide +kernel)

end Console

end Chip8
