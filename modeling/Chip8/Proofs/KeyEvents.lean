import Chip8.Proofs.Keymaps
import Chip8.Proofs.Latest

/-!
# Chip8.Proofs.KeyEvents — which keys are down after what has happened to them

Keys are moved by the events of a window, which come in batches, and by requests to the keypad
itself.  A key is down exactly if the last act that moved it put it down, whatever came in between
(`keys_follow_acts`): an act moves a key only if it is about that key (`PutsKey`), every event of a
batch counts, also one after an event that asks to quit, and the Escape key moves nothing when it
comes up.
-/

namespace Chip8

open IntLiteral (Denotes)

/-! ## What happens to the keys -/

/-- What the keypad can be told, or a host key with that code can be reported to do. -/
inductive KeyRequest where
  | press (key : Int)
  | release (key : Int)
  | setAll (states : List Bool)
  | clear
  | hostKey (code : Int) (down : Bool)

/-- What can be called: a request, or asking the host for the events since it was last asked. -/
inductive KeyCall where
  | poll (events : List WindowEvent)
  | request (r : KeyRequest)

/-- The single acts of which calls consist. -/
inductive KeyAct where
  | event (e : WindowEvent)
  | request (r : KeyRequest)

namespace WindowEvent

/-- The window is closed, or the Escape key comes up. -/
def AsksToQuit (e : WindowEvent) : Prop := e.kind = quitKind ∨ e = keyUp escape

theorem meaning_eq_keyDown_iff {e : WindowEvent} {code : Int} :
    e.meaning = .keyDown code ↔ e = keyDown code := by
  obtain ⟨kind, code', hcoded⟩ := e
  simp only [meaning, keyDown, quitKind, keyDownKind, keyUpKind, mk.injEq]
  grind

theorem meaning_eq_keyUp_iff {e : WindowEvent} {code : Int} :
    e.meaning = .keyUp code ↔ e = keyUp code ∧ code ≠ escape := by
  obtain ⟨kind, code', hcoded⟩ := e
  simp only [meaning, keyUp, quitKind, keyDownKind, keyUpKind, mk.injEq]
  grind

theorem meaning_eq_quit_iff {e : WindowEvent} : e.meaning = .quit ↔ e.AsksToQuit := by
  obtain ⟨kind, code', hcoded⟩ := e
  simp only [meaning, AsksToQuit, keyUp, quitKind, keyDownKind, keyUpKind, mk.injEq]
  grind

end WindowEvent

namespace KeyCall

/-- The acts of a call.  Without a window there are no events. -/
def acts (windowed : Bool) : KeyCall → List KeyAct
  | poll events => if windowed then events.map .event else []
  | request r => [.request r]

/-- The events of a call that asks for some. -/
def batch? : KeyCall → Option (List HostEvent)
  | poll events => some (events.map WindowEvent.meaning)
  | request _ => none

/-- The batches that a host with or without a window has for the calls. -/
def script (windowed : Bool) (calls : List KeyCall) : List (List HostEvent) :=
  if windowed then calls.filterMap batch? else []

end KeyCall

/-- The field of key `k` in the text of a keymap denotes that code. -/
def StandsFor (text : String) (code : Int) (k : Key) : Prop :=
  ∃ field, (text.toList.splitOn ',')[k.val]? = some field ∧ Denotes field code

/-- The act moves the key `k`: down, or up. -/
inductive PutsKey (text : String) (k : Key) : KeyAct → Bool → Prop
  | press : PutsKey text k (.request (.press k.val)) true
  | release : PutsKey text k (.request (.release k.val)) false
  | setAll {states : List Bool} {down : Bool} (hlen : states.length = 16)
      (hstate : states[k.val]? = some down) : PutsKey text k (.request (.setAll states)) down
  | clear : PutsKey text k (.request .clear) false
  | hostKey {code : Int} {down : Bool} (hcode : StandsFor text code k) :
      PutsKey text k (.request (.hostKey code down)) down
  | keyDown {code : Int} (hcode : StandsFor text code k) :
      PutsKey text k (.event (.keyDown code)) true
  | keyUp {code : Int} (hcode : StandsFor text code k) (hescape : code ≠ WindowEvent.escape) :
      PutsKey text k (.event (.keyUp code)) false

/-- The keypad refuses the request. -/
inductive KeyRefusal : KeyRequest → KeypadFault → Prop
  | press {key : Int} (hkey : ¬ (0 ≤ key ∧ key < 16)) : KeyRefusal (.press key) (.noSuchKey key)
  | release {key : Int} (hkey : ¬ (0 ≤ key ∧ key < 16)) :
      KeyRefusal (.release key) (.noSuchKey key)
  | setAll {states : List Bool} (hlen : states.length ≠ 16) :
      KeyRefusal (.setAll states) .wrongCount

/-! ## Calls -/

/-- The keypad, and the inputs that move its keys. -/
structure Keyboard where
  input : HostInput
  keypad : Keypad

namespace Keyboard

/-- The keypad that a request leads to. -/
def grant (b : Keyboard) : KeyRequest → Except KeypadFault Keypad
  | .press key => b.keypad.press key
  | .release key => b.keypad.release key
  | .setAll states => b.keypad.setAll states
  | .clear => .ok .released
  | .hostKey code down => .ok (b.input.keymap.move b.keypad code down)

/-- The keyboard after a call, and the answer: whether the user wants to quit, if that was asked. -/
def obey (b : Keyboard) : KeyCall → Keyboard × Except KeypadFault (Option Bool)
  | .poll _ =>
    let r := b.input.poll b.keypad
    (⟨r.1, r.2.1⟩, .ok (some r.2.2))
  | .request r =>
    match b.grant r with
    | .ok keypad => ({ b with keypad }, .ok none)
    | .error fault => (b, .error fault)

/-- The keyboard after some calls, and their answers. -/
def obeyAll (b : Keyboard) : List KeyCall → Keyboard × List (Except KeypadFault (Option Bool))
  | [] => (b, [])
  | call :: calls =>
    let r := (b.obey call).1.obeyAll calls
    (r.1, (b.obey call).2 :: r.2)

end Keyboard

/-- What a call answers. -/
inductive KeyAnswer (windowed : Bool) : KeyCall → Except KeypadFault (Option Bool) → Prop
  | polled {events : List WindowEvent} {quit : Bool}
      (hquit : quit = true ↔ windowed = true ∧ ∃ e ∈ events, e.AsksToQuit) :
      KeyAnswer windowed (.poll events) (.ok (some quit))
  | granted {r : KeyRequest} (hdone : ∀ fault, ¬ KeyRefusal r fault) :
      KeyAnswer windowed (.request r) (.ok none)
  | refused {r : KeyRequest} {fault : KeypadFault} (hrefused : KeyRefusal r fault) :
      KeyAnswer windowed (.request r) (.error fault)

/-! ## Single acts -/

variable {text : String} {windowed : Bool} {keymap : Keymap} {p : Keypad} {k : Key} {a : KeyAct}
  {e : WindowEvent} {events : List WindowEvent} {r : KeyRequest} {code : Int} {down : Bool}
  {b : Keyboard} {call : KeyCall} {calls rest : List KeyCall}

theorem Keypad.down_move (p : Keypad) (j k : Key) (down : Bool) :
    (p.move j down).down.get k = if k = j then down else p.down.get k := by
  have hcell : (p.move j down).down.get k = (p.down.set j.val down)[k.val] := rfl
  rw [hcell, Vector.getElem_set]
  by_cases h : k = j
  · rw [if_pos (congrArg Fin.val h.symm), if_pos h]
  · rw [if_neg fun hval => h (Fin.ext hval.symm), if_neg h]
    rfl

/-- The keymap in use is the one in the text. -/
def Keymap.WrittenAs (keymap : Keymap) (text : String) : Prop :=
  ∀ code k, keymap.key? code = some k ↔ StandsFor text code k

theorem writtenAs_of_create {batches : List (List HostEvent)} {input : HostInput}
    (hmade : HostInput.create text batches = .ok input) :
    input.keymap.WrittenAs text ∧ input.batches = batches := by
  unfold HostInput.create at hmade
  rcases Keymap.parse_cases text with
    ⟨-, hparse⟩ | ⟨hlen, ⟨codes, hread, hnodup, hparse⟩ | ⟨i, fault, -, hparse⟩⟩
  · rw [hparse] at hmade
    cases hmade
  · rw [hparse] at hmade
    cases hmade
    refine ⟨?_, rfl⟩
    intro code k
    rw [Keymap.key_eq_some_iff (hread.length_eq.symm.trans hlen) hnodup]
    exact Keymap.getElem?_codes hread k.val code
  · rw [hparse] at hmade
    cases hmade

/-- An act that moves the key of a host code, and no other, goes along with the keypad. -/
theorem latest_move (hwritten : keymap.WrittenAs text)
    (hputs : StandsFor text code k → PutsKey text k a down)
    (hkeeps : ¬ StandsFor text code k → ∀ d, ¬ PutsKey text k a d) :
    Latest (PutsKey text k) (p.down.get k) [a] ((keymap.move p code down).down.get k) := by
  by_cases hcode : StandsFor text code k
  · have hmove : (keymap.move p code down).down.get k = down := by
      rw [Keymap.move, (hwritten code k).mpr hcode]
      simp only
      rw [Keypad.down_move, if_pos rfl]
    rw [hmove]
    exact .of_sets (hputs hcode)
  · have hmove : (keymap.move p code down).down.get k = p.down.get k := by
      unfold Keymap.move
      cases hkey : keymap.key? code with
      | none => rfl
      | some j =>
        have hne : k ≠ j := by
          rintro rfl
          exact hcode ((hwritten code k).mp hkey)
        simp only
        rw [Keypad.down_move, if_neg hne]
    rw [hmove]
    exact .of_not_sets (hkeeps hcode)

theorem puts_event_iff :
    PutsKey text k (.event e) down ↔ ∃ code, StandsFor text code k ∧
      (e.meaning = .keyDown code ∧ down = true ∨ e.meaning = .keyUp code ∧ down = false) := by
  simp only [WindowEvent.meaning_eq_keyDown_iff, WindowEvent.meaning_eq_keyUp_iff]
  constructor
  · intro h
    cases h with
    | keyDown hcode => exact ⟨_, hcode, Or.inl ⟨rfl, rfl⟩⟩
    | keyUp hcode hescape => exact ⟨_, hcode, Or.inr ⟨⟨rfl, hescape⟩, rfl⟩⟩
  · rintro ⟨code, hcode, ⟨rfl, rfl⟩ | ⟨⟨rfl, hescape⟩, rfl⟩⟩
    · exact .keyDown hcode
    · exact .keyUp hcode hescape

/-- An event moves the key that its code stands for, except where it asks to quit. -/
theorem latest_event (hwritten : keymap.WrittenAs text) (p : Keypad) (k : Key) (e : WindowEvent) :
    Latest (PutsKey text k) (p.down.get k) [.event e] ((e.meaning.apply keymap p).down.get k) := by
  have hputs := @puts_event_iff text k e
  cases hmeaning : e.meaning with
  | keyDown code =>
    refine latest_move hwritten (fun hcode => hputs.mpr ⟨code, hcode, Or.inl ⟨hmeaning, rfl⟩⟩) ?_
    intro hcode d h
    obtain ⟨code', hcode', ⟨hsame, -⟩ | ⟨hsame, -⟩⟩ := hputs.mp h <;> simp_all
  | keyUp code =>
    refine latest_move hwritten (fun hcode => hputs.mpr ⟨code, hcode, Or.inr ⟨hmeaning, rfl⟩⟩) ?_
    intro hcode d h
    obtain ⟨code', hcode', ⟨hsame, -⟩ | ⟨hsame, -⟩⟩ := hputs.mp h <;> simp_all
  | quit => exact .of_not_sets fun d h => by simp [hputs, hmeaning] at h
  | other => exact .of_not_sets fun d h => by simp [hputs, hmeaning] at h

/-- Every event of a batch takes effect, in order. -/
theorem latest_batch (hwritten : keymap.WrittenAs text) (p : Keypad) (k : Key)
    (events : List WindowEvent) :
    Latest (PutsKey text k) (p.down.get k) (events.map .event)
      ((HostEvent.applyAll keymap p (events.map WindowEvent.meaning)).down.get k) := by
  induction events generalizing p with
  | nil => exact Latest.nil_iff.mpr rfl
  | cons e events ih => exact (latest_event hwritten p k e).append (ih (e.meaning.apply keymap p))

/-! ## Requests -/

theorem puts_press_iff {key : Int} :
    PutsKey text k (.request (.press key)) down ↔ key = k.val ∧ down = true := by
  constructor
  · intro h
    cases h
    exact ⟨rfl, rfl⟩
  · rintro ⟨rfl, rfl⟩
    exact .press

theorem puts_release_iff {key : Int} :
    PutsKey text k (.request (.release key)) down ↔ key = k.val ∧ down = false := by
  constructor
  · intro h
    cases h
    exact ⟨rfl, rfl⟩
  · rintro ⟨rfl, rfl⟩
    exact .release

/-- An act about a key by its number moves that key, if there is one. -/
theorem key_cases {key : Int} (hputs : ∀ (k : Key) d, PutsKey text k a d ↔ key = k.val ∧ d = down)
    (p : Keypad) :
    ((0 ≤ key ∧ key < 16) ∧ ∃ j, Keypad.key? key = .ok j ∧
      ∀ k : Key, Latest (PutsKey text k) (p.down.get k) [a] ((p.move j down).down.get k)) ∨
    (¬ (0 ≤ key ∧ key < 16) ∧ Keypad.key? key = .error (.noSuchKey key) ∧
      ∀ (k : Key) d, ¬ PutsKey text k a d) := by
  by_cases hkey : 0 ≤ key ∧ key < 16
  · obtain ⟨j, rfl⟩ : ∃ j : Key, key = j.val := ⟨⟨key.toNat, by omega⟩, by simp; omega⟩
    refine Or.inl ⟨hkey, j, dif_pos hkey, ?_⟩
    intro k
    rw [Keypad.down_move]
    by_cases hk : k = j
    · rw [if_pos hk]
      exact .of_sets ((hputs k down).mpr ⟨by rw [hk], rfl⟩)
    · rw [if_neg hk]
      refine .of_not_sets ?_
      intro d h
      exact hk (Fin.ext (by have := ((hputs k d).mp h).1; omega))
  · refine Or.inr ⟨hkey, dif_neg hkey, ?_⟩
    intro k d h
    have hsame := ((hputs k d).mp h).1
    omega

namespace Keyboard

/-- A request is granted, and the keypad goes along with it; or it is refused, and is one that moves
no key. -/
theorem grant_cases (hwritten : b.input.keymap.WrittenAs text) (r : KeyRequest) :
    (∃ p, b.grant r = .ok p ∧ (∀ fault, ¬ KeyRefusal r fault) ∧
      ∀ k : Key, Latest (PutsKey text k) (b.keypad.down.get k) [.request r] (p.down.get k)) ∨
    ∃ fault, b.grant r = .error fault ∧ KeyRefusal r fault ∧
      ∀ (k : Key) d, ¬ PutsKey text k (.request r) d := by
  cases r with
  | press key =>
    rcases key_cases (fun k d => puts_press_iff) b.keypad with
      ⟨hkey, j, hj, hlatest⟩ | ⟨hkey, hnone, hkeeps⟩
    · refine Or.inl ⟨_, by rw [grant, Keypad.press, hj], ?_, hlatest⟩
      intro fault hrefused
      cases hrefused with
      | press hkey' => exact hkey' hkey
    · exact Or.inr ⟨_, by rw [grant, Keypad.press, hnone], .press hkey, hkeeps⟩
  | release key =>
    rcases key_cases (fun k d => puts_release_iff) b.keypad with
      ⟨hkey, j, hj, hlatest⟩ | ⟨hkey, hnone, hkeeps⟩
    · refine Or.inl ⟨_, by rw [grant, Keypad.release, hj], ?_, hlatest⟩
      intro fault hrefused
      cases hrefused with
      | release hkey' => exact hkey' hkey
    · exact Or.inr ⟨_, by rw [grant, Keypad.release, hnone], .release hkey, hkeeps⟩
  | setAll states =>
    by_cases hlen : states.length = 16
    · refine Or.inl ⟨⟨⟨states.toArray, by simpa using hlen⟩⟩, dif_pos hlen, ?_, ?_⟩
      · intro fault hrefused
        cases hrefused with
        | setAll hlen' => exact hlen' hlen
      · intro k
        have hk : k.val < states.length := by omega
        exact .of_sets (.setAll hlen (List.getElem?_eq_getElem hk))
    · refine Or.inr ⟨.wrongCount, dif_neg hlen, .setAll hlen, ?_⟩
      intro k d hputs
      cases hputs with
      | setAll hlen' => exact hlen hlen'
  | clear =>
    refine Or.inl ⟨.released, rfl, (by rintro _ ⟨⟩), ?_⟩
    intro k
    have hup : Keypad.released.down.get k = false := Vector.getElem_replicate k.isLt
    rw [hup]
    exact .of_sets .clear
  | hostKey code down =>
    refine Or.inl ⟨_, rfl, (by rintro _ ⟨⟩), ?_⟩
    intro k
    refine latest_move hwritten (fun hcode => .hostKey hcode) ?_
    intro hcode d hputs
    cases hputs with
    | hostKey hcode' => exact hcode hcode'

theorem obey_of_granted (h : b.grant r = .ok p) :
    b.obey (.request r) = ({ b with keypad := p }, .ok none) := by
  rw [obey, h]

theorem obey_of_refused {fault : KeypadFault} (h : b.grant r = .error fault) :
    b.obey (.request r) = (b, .error fault) := by
  rw [obey, h]

/-! ## Calls -/

/-- The inputs read the keymap in the text, and have the batches for the calls. -/
structure Ready (windowed : Bool) (text : String) (input : HostInput) (calls : List KeyCall) :
    Prop where
  written : input.keymap.WrittenAs text
  batches : input.batches = KeyCall.script windowed calls

/-- What one call does: it leaves the inputs ready for the calls that follow, answers as it should,
and moves the keys as its acts do. -/
structure Obeyed (windowed : Bool) (text : String) (b : Keyboard) (call : KeyCall)
    (calls : List KeyCall) : Prop where
  ready : Ready windowed text (b.obey call).1.input calls
  answer : KeyAnswer windowed call (b.obey call).2
  keys : ∀ k : Key, Latest (PutsKey text k) (b.keypad.down.get k) (call.acts windowed)
    ((b.obey call).1.keypad.down.get k)

theorem obeyed_poll (h : Ready windowed text b.input (.poll events :: calls)) :
    Obeyed windowed text b (.poll events) calls := by
  obtain ⟨hwritten, hbatches⟩ := h
  have hbatch : b.input.batch = if windowed then events.map WindowEvent.meaning else [] := by
    rw [HostInput.batch, hbatches, KeyCall.script]
    cases windowed <;> rfl
  have htail : b.input.batches.tail = KeyCall.script windowed calls := by
    rw [hbatches, KeyCall.script, KeyCall.script]
    cases windowed <;> rfl
  refine ⟨⟨hwritten, htail⟩, .polled ?_, ?_⟩
  · show HostEvent.asksToQuit b.input.batch = true ↔ _
    rw [hbatch, HostEvent.asksToQuit]
    cases windowed with
    | false => simp
    | true => simp [WindowEvent.meaning_eq_quit_iff]
  · intro k
    show Latest _ _ _ ((HostEvent.applyAll b.input.keymap b.keypad b.input.batch).down.get k)
    rw [hbatch, KeyCall.acts]
    cases windowed with
    | false => exact Latest.nil_iff.mpr rfl
    | true => exact latest_batch hwritten b.keypad k events

theorem obeyed_request (h : Ready windowed text b.input (.request r :: calls)) :
    Obeyed windowed text b (.request r) calls := by
  obtain ⟨hwritten, hbatches⟩ := h
  have hready : Ready windowed text b.input calls := ⟨hwritten, hbatches⟩
  rcases grant_cases hwritten r with ⟨p, hgrant, hdone, hlatest⟩ | ⟨fault, hgrant, hrefused, hkeeps⟩
  · have hobey := obey_of_granted hgrant
    refine ⟨?_, ?_, ?_⟩ <;> rw [hobey]
    · exact hready
    · exact .granted hdone
    · exact hlatest
  · have hobey := obey_of_refused hgrant
    refine ⟨?_, ?_, ?_⟩ <;> rw [hobey]
    · exact hready
    · exact .refused hrefused
    · intro k
      exact .of_not_sets (hkeeps k)

theorem Ready.obeyed (h : Ready windowed text b.input (call :: calls)) :
    Obeyed windowed text b call calls := by
  cases call with
  | poll events => exact obeyed_poll h
  | request r => exact obeyed_request h

theorem Ready.obeyAll (h : Ready windowed text b.input (calls ++ rest)) :
    List.Forall₂ (KeyAnswer windowed) calls (b.obeyAll calls).2 ∧
      ∀ k : Key, Latest (PutsKey text k) (b.keypad.down.get k)
        (calls.flatMap (KeyCall.acts windowed)) ((b.obeyAll calls).1.keypad.down.get k) := by
  induction calls generalizing b with
  | nil => exact ⟨.nil, fun k => Latest.nil_iff.mpr rfl⟩
  | cons call calls ih =>
    obtain ⟨hready, hanswer, hkeys⟩ := h.obeyed
    obtain ⟨hanswers, hmore⟩ := ih hready
    exact ⟨.cons hanswer hanswers, fun k => (hkeys k).append (hmore k)⟩

end Keyboard

/-! ## The law -/

/-- An act moves a key one way only. -/
theorem PutsKey.unique {up : Bool} (h : PutsKey text k a down) (h' : PutsKey text k a up) :
    down = up := by
  cases h <;> cases h' <;> simp_all

/-- **Keys follow the acts.**  The inputs are made from the text of a keymap, with or without a
window, and the keypad is in any state.  However requests to the keypad and batches of events are
mixed, and wherever the calls are cut off, a key is then down exactly if the last act that moved it
put it down, or if none moved it and it was down at the start.  A request is refused exactly if it
is about no key or has the wrong number of states, and asking for events answers that the user wants
to quit exactly if some event of the batch says so. -/
theorem keys_follow_acts {input : HostInput}
    (hmade : HostInput.create text (KeyCall.script windowed (calls ++ rest)) = .ok input)
    (p : Keypad) :
    (∀ k : Key, ((⟨input, p⟩ : Keyboard).obeyAll calls).1.keypad.down.get k = true ↔
      Latest (PutsKey text k) (p.down.get k) (calls.flatMap (KeyCall.acts windowed)) true) ∧
    List.Forall₂ (KeyAnswer windowed) calls ((⟨input, p⟩ : Keyboard).obeyAll calls).2 := by
  obtain ⟨hwritten, hbatches⟩ := writtenAs_of_create hmade
  have hready : Keyboard.Ready windowed text (⟨input, p⟩ : Keyboard).input (calls ++ rest) :=
    ⟨hwritten, hbatches⟩
  obtain ⟨hanswers, hkeys⟩ := hready.obeyAll
  refine ⟨?_, hanswers⟩
  intro k
  constructor
  · intro hdown
    rw [← hdown]
    exact hkeys k
  · intro hdown
    exact Latest.unique (fun _ _ _ h h' => h.unique h') (hkeys k) hdown

/-- Host key codes of the keys `0` to `F`, with Escape for the key `0`. -/
def escapeKeymap : String := "27,49,50,51,113,119,101,97,115,100,122,99,52,114,102,118"

/-- Escape goes down, the window is closed and Escape comes up, all in one batch; a request about no
key follows. -/
def closingCalls : List KeyCall :=
  [.poll [.keyDown 27, .close, .keyUp 27], .request (.release 16)]

/-- The key stays down, the user wants to quit, and the request is refused. -/
theorem keys_follow_acts_while_closing :
    ∃ input, HostInput.create escapeKeymap (KeyCall.script true (closingCalls ++ [])) = .ok input ∧
      ((⟨input, .released⟩ : Keyboard).obeyAll closingCalls).1.keypad.down.get 0 = true ∧
      ((⟨input, .released⟩ : Keyboard).obeyAll closingCalls).2 =
        [.ok (some true), .error (.noSuchKey 16)] := by
  have hparse : Keymap.parse escapeKeymap = .ok ⟨[27, 49, 50, 51, 113, 119, 101, 97, 115, 100, 122,
      99, 52, 114, 102, 118].zip (List.finRange 16)⟩ := by
    decide +kernel
  obtain ⟨input, hmade, hkey⟩ : ∃ input,
      HostInput.create escapeKeymap (KeyCall.script true (closingCalls ++ [])) = .ok input ∧
        input.keymap.key? 27 = some 0 := by
    rw [HostInput.create, hparse]
    exact ⟨_, rfl, rfl⟩
  have hstands : StandsFor escapeKeymap 27 0 := ((writtenAs_of_create hmade).1 27 0).mp hkey
  obtain ⟨hkeys, hanswers⟩ := keys_follow_acts hmade .released
  refine ⟨input, hmade, (hkeys 0).mpr (Or.inl ⟨[], _, _, rfl, .keyDown hstands, ?_⟩), ?_⟩
  · intro a ha d hputs
    cases hputs <;> simp_all [KeyCall.acts, WindowEvent.keyDown, WindowEvent.keyUp,
      WindowEvent.close, WindowEvent.keyDownKind, WindowEvent.keyUpKind, WindowEvent.quitKind,
      WindowEvent.escape]
  · generalize ((⟨input, .released⟩ : Keyboard).obeyAll closingCalls).2 = answers at hanswers
    rcases hanswers with _ | ⟨⟨hquit⟩, _ | ⟨hanswer, ⟨⟩⟩⟩
    have hasks : WindowEvent.close.AsksToQuit := Or.inl rfl
    rw [hquit.mpr ⟨rfl, _, by simp, hasks⟩]
    cases hanswer with
    | granted hdone => exact absurd (.release (by decide)) (hdone (.noSuchKey 16))
    | refused hrefused =>
      cases hrefused
      rfl

end Chip8
