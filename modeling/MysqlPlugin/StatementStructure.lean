import MysqlPlugin.Substitution

namespace MysqlPlugin.StatementStructure

open QueryBuilder Substitution Template

inductive QuoteState
  | plain | single | double | backtick | singleEscape | doubleEscape
  deriving DecidableEq

def quoteStep : QuoteState → UInt8 → QuoteState
  | .plain, b =>
      if b = 39 then .single else if b = 34 then .double else if b = 96 then .backtick else .plain
  | .single, b => if b = 92 then .singleEscape else if b = 39 then .plain else .single
  | .double, b => if b = 92 then .doubleEscape else if b = 34 then .plain else .double
  | .backtick, b => if b = 96 then .plain else .backtick
  | .singleEscape, _ => .single
  | .doubleEscape, _ => .double

/-- How the server tells quoted text from the rest of a statement, in its
default mode and with a single-byte or UTF-8 character set. -/
def quoting : DFA UInt8 QuoteState := ⟨quoteStep, .plain, {.plain}⟩

/-- The encoding that the manual of libmysql gives for one byte: NUL, newline,
carriage return, Control-Z, both quotes and the backslash are escaped. -/
def escapeByte (b : UInt8) : Bytes :=
  if b = 0 then [92, 48]
  else if b = 10 then [92, 110]
  else if b = 13 then [92, 114]
  else if b = 26 then [92, 90]
  else if b = 34 ∨ b = 39 ∨ b = 92 then [92, b]
  else [b]

def BackslashEscaping (escape : Bytes → Bytes) : Prop :=
  ∀ text, escape text = text.flatMap escapeByte

theorem zero_notMem_escape (text : Bytes) : 0 ∉ text.flatMap escapeByte := by
  intro h
  obtain ⟨b, _, hb⟩ := List.mem_flatMap.mp h
  rw [escapeByte] at hb
  split_ifs at hb <;> simp_all

theorem length_escape_le (text : Bytes) : (text.flatMap escapeByte).length ≤ 2 * text.length := by
  induction text with
  | nil => simp
  | cons b text ih =>
      have hb : (escapeByte b).length ≤ 2 := by
        rw [escapeByte]; split_ifs <;> simp
      simp only [List.flatMap_cons, List.length_append, List.length_cons]
      omega

def Inside (s : QuoteState) : Prop := s = .double ∨ s = .doubleEscape

theorem escapeByte_inside (b : UInt8) :
    quoting.evalFrom .double (escapeByte b) = .double ∧ StaysIn quoting Inside .double (escapeByte b) := by
  rw [escapeByte]
  split_ifs with h0 h1 h2 h3 h4
  · exact ⟨rfl, by simp [StaysIn, Inside, quoting, quoteStep]⟩
  · exact ⟨rfl, by simp [StaysIn, Inside, quoting, quoteStep]⟩
  · exact ⟨rfl, by simp [StaysIn, Inside, quoting, quoteStep]⟩
  · exact ⟨rfl, by simp [StaysIn, Inside, quoting, quoteStep]⟩
  · exact ⟨rfl, by simp [StaysIn, Inside, quoting, quoteStep]⟩
  · simp only [not_or] at h4
    simp [StaysIn, Inside, quoting, quoteStep, h4.1, h4.2.2]

theorem escape_inside (text : Bytes) :
    quoting.evalFrom .double (text.flatMap escapeByte) = .double ∧
      StaysIn quoting Inside .double (text.flatMap escapeByte) := by
  induction text with
  | nil => exact ⟨rfl, Or.inl rfl⟩
  | cons b text ih =>
      obtain ⟨he, hs⟩ := escapeByte_inside b
      rw [List.flatMap_cons, DFA.evalFrom_of_append, he]
      exact ⟨ih.1, staysIn_append.mpr ⟨hs, by rw [he]; exact ih.2⟩⟩

def literal (text : Bytes) : Bytes := 34 :: (text.flatMap escapeByte ++ [34])

/-- Opened by the first byte, closed by the last, and never left in between. -/
def OneRegion (text : Bytes) : Prop :=
  text ≠ [] ∧ quoting.evalFrom .plain text = .plain ∧
    ∀ x y, text = x ++ y → x ≠ [] → y ≠ [] → Inside (quoting.evalFrom .plain x)

theorem literal_plain (text : Bytes) : quoting.evalFrom .plain (literal text) = .plain := by
  rw [literal, DFA.evalFrom_cons]
  change quoting.evalFrom .double _ = _
  rw [DFA.evalFrom_of_append, (escape_inside text).1]
  rfl

theorem literal_oneRegion (text : Bytes) : OneRegion (literal text) := by
  refine ⟨List.cons_ne_nil _ _, literal_plain text, ?_⟩
  intro x y he hx hy
  cases x with
  | nil => exact absurd rfl hx
  | cons b x =>
      rw [literal, List.cons_append, List.cons.injEq] at he
      obtain ⟨rfl, he⟩ := he
      obtain ⟨z, hz⟩ : ∃ z, text.flatMap escapeByte = x ++ z := by
        obtain ⟨y', c, rfl⟩ := List.eq_nil_or_concat y |>.resolve_left hy
        rw [List.concat_eq_append, ← List.append_assoc] at he
        exact ⟨y', List.append_inj_left' he rfl⟩
      exact (hz ▸ (escape_inside text).2).left

theorem readIn_literal (text : Bytes) : readIn quoting .plain .plain (literal text) = [34] := by
  have h : StaysIn quoting (· ≠ .plain) .double (text.flatMap escapeByte) :=
    (escape_inside text).2.mono (by rintro s (rfl | rfl) <;> simp)
  rw [literal, readIn, if_pos rfl]
  change 34 :: readIn quoting .plain .double _ = _
  rw [readIn_append, readIn_eq_nil h, (escape_inside text).1]
  rfl

theorem overwrite_append {a b c bytes : Bytes} (h : bytes.length = b.length) :
    overwrite (a ++ (b ++ c)) a.length bytes = a ++ (bytes ++ c) := by
  rw [overwrite, h, List.take_left, ← List.append_assoc a b c, ← List.length_append, List.drop_left,
    List.append_assoc]

theorem escapeStringParameter_eq {lib : Externals} (hlib : BackslashEscaping lib.mysqlEscapeString)
    {text : Bytes} (h0 : 0 ∉ text) (hlen : text.length ≤ 255) :
    escapeStringParameter lib text = some (literal text) := by
  rw [literal]
  have hl := length_escape_le text
  have hfit : (text.flatMap escapeByte).length + 2 < stringParameterBufferSize := by
    rw [stringParameterBufferSize]; omega
  have h34 : 0 ∉ 34 :: (text.flatMap escapeByte ++ [34]) := by
    simpa using zero_notMem_escape text
  obtain ⟨n, hn⟩ : ∃ n, stringParameterBufferSize = 1 + ((text.flatMap escapeByte).length + 1 + (n + 1)) :=
    ⟨stringParameterBufferSize - (text.flatMap escapeByte).length - 3, by omega⟩
  simp only [escapeStringParameter, cString_eq_self h0, hlib text, hfit, if_true, Option.some.injEq]
  generalize text.flatMap escapeByte = escaped at *
  have hzero : List.replicate stringParameterBufferSize (0 : UInt8) =
      [] ++ (List.replicate 1 0 ++
        (List.replicate (escaped.length + 1) 0 ++ List.replicate (n + 1) 0)) := by
    rw [List.replicate_append_replicate, List.replicate_append_replicate, ← hn, List.nil_append]
  have hopen : overwrite (List.replicate stringParameterBufferSize 0) 0 [34] =
      [34] ++ (List.replicate (escaped.length + 1) 0 ++ List.replicate (n + 1) 0) := by
    rw [hzero]
    exact overwrite_append (a := []) (by simp)
  have htext : overwrite ([34] ++ (List.replicate (escaped.length + 1) 0 ++ List.replicate (n + 1) 0)) 1
      (escaped ++ [0]) = (34 :: escaped) ++ ([0] ++ List.replicate (n + 1) 0) := by
    rw [show (1 : Nat) = [(34 : UInt8)].length from rfl, overwrite_append (by simp)]
    simp
  have hclose : overwrite ((34 :: escaped) ++ ([0] ++ List.replicate (n + 1) 0)) (1 + escaped.length)
      [34] = (34 :: escaped) ++ ([34] ++ List.replicate (n + 1) 0) := by
    rw [show 1 + escaped.length = (34 :: escaped).length by simp [Nat.add_comm],
      overwrite_append (by simp)]
  rw [hopen, htext, hclose, List.replicate_succ, ← List.append_assoc, List.cons_append]
  exact cString_of_notMem h34 _

/-- What a script passes for one placeholder: the text of a string parameter,
or the text that was made of a number. -/
inductive Parameter
  | string (text : Bytes)
  | number (text : Bytes)
  deriving DecidableEq

namespace Parameter

def Admissible : Parameter → Prop
  | string text => 0 ∉ text ∧ text.length ≤ 255
  | number text => ∀ b ∈ text, b ≠ 34 ∧ b ≠ 39 ∧ b ≠ 96 ∧ b ≠ 92

def render (lib : Externals) : Parameter → Option Bytes
  | string text => escapeStringParameter lib text
  | number text => some text

def emptied : Parameter → Parameter
  | string _ => string []
  | number text => number text

/-- The part of the inserted text that is read outside of quotes: of a string
only the quote that opens it. -/
def outside : Parameter → Bytes
  | string _ => [34]
  | number text => readIn quoting .plain .plain text

theorem outside_emptied (p : Parameter) : p.emptied.outside = p.outside := by
  cases p <;> rfl

end Parameter

def renderAll (lib : Externals) (ps : List Parameter) : List Bytes := ps.filterMap (Parameter.render lib)

theorem number_plain {text : Bytes} (h : ∀ b ∈ text, b ≠ 34 ∧ b ≠ 39 ∧ b ≠ 96 ∧ b ≠ 92) :
    quoting.evalFrom .plain text = .plain := by
  induction text with
  | nil => rfl
  | cons b text ih =>
      obtain ⟨h34, h39, h96, _⟩ := h b (by simp)
      have hb : quoting.step .plain b = .plain := by simp [quoting, quoteStep, h34, h39, h96]
      rw [DFA.evalFrom_cons, hb]
      exact ih (fun c hc => h c (by simp [hc]))

section Rendering

variable {lib : Externals} (hlib : BackslashEscaping lib.mysqlEscapeString)

include hlib

theorem render_plain {p : Parameter} (hp : p.Admissible) :
    ∃ text, p.render lib = some text ∧ quoting.evalFrom .plain text = .plain ∧
      (∀ t, p = .string t → text = literal t) := by
  cases p with
  | string text =>
      refine ⟨literal text, escapeStringParameter_eq hlib hp.1 hp.2, literal_plain text, ?_⟩
      rintro t ⟨⟩
      rfl
  | number text => exact ⟨text, rfl, number_plain hp, by rintro t ⟨⟩⟩

theorem renderAll_eq_map {ps : List Parameter} (hps : ∀ p ∈ ps, p.Admissible) :
    (renderAll lib ps).map some = ps.map (Parameter.render lib) := by
  induction ps with
  | nil => rfl
  | cons p ps ih =>
      obtain ⟨text, ht, _⟩ := render_plain hlib (hps p (by simp))
      have ih' := ih (fun p hp => hps p (by simp [hp]))
      rw [renderAll] at ih' ⊢
      simp [ht, ih']

theorem renderAll_plain {ps : List Parameter} (hps : ∀ p ∈ ps, p.Admissible) :
    ∀ text ∈ renderAll lib ps, quoting.evalFrom .plain text = .plain := by
  intro text ht
  obtain ⟨p, hp, hr⟩ := List.mem_filterMap.mp ht
  obtain ⟨text', ht', hplain, _⟩ := render_plain hlib (hps p hp)
  obtain rfl : text = text' := by simpa [hr] using ht'
  exact hplain

theorem getElem?_renderAll {ps : List Parameter} (hps : ∀ p ∈ ps, p.Admissible) {i : Nat}
    {text : Bytes} (h : (renderAll lib ps)[i]? = some text) :
    ∃ p, ps[i]? = some p ∧ p.render lib = some text := by
  have hm := congrArg (fun l => l[i]?) (renderAll_eq_map hlib hps)
  simp only [List.getElem?_map, h, Option.map_some] at hm
  obtain ⟨p, hp, hr⟩ := Option.map_eq_some_iff.mp hm.symm
  exact ⟨p, hp, hr⟩

omit hlib in
theorem emptied_admissible {ps : List Parameter} (hps : ∀ p ∈ ps, p.Admissible) :
    ∀ p ∈ ps.map Parameter.emptied, p.Admissible := by
  intro p hp
  obtain ⟨q, hq, rfl⟩ := List.mem_map.mp hp
  cases q with
  | string text => exact ⟨by simp, by simp⟩
  | number text => exact hps _ hq

theorem readIn_renderAll {ps : List Parameter} (hps : ∀ p ∈ ps, p.Admissible) :
    (renderAll lib ps).map (readIn quoting .plain .plain) = ps.map Parameter.outside := by
  induction ps with
  | nil => rfl
  | cons p ps ih =>
      have ih' := ih (fun p hp => hps p (by simp [hp]))
      have hp : ∃ text, p.render lib = some text ∧ readIn quoting .plain .plain text = p.outside := by
        cases p with
        | string text =>
            have h := hps _ List.mem_cons_self
            exact ⟨literal text, escapeStringParameter_eq hlib h.1 h.2, readIn_literal text⟩
        | number text => exact ⟨text, rfl, rfl⟩
      obtain ⟨text, ht, ho⟩ := hp
      rw [renderAll] at ih' ⊢
      simp [ht, ho, ih']

theorem length_renderAll {ps : List Parameter} (hps : ∀ p ∈ ps, p.Admissible) :
    (renderAll lib ps).length = ps.length := by
  simpa using congrArg List.length (renderAll_eq_map hlib hps)

omit hlib in
theorem mark_plain : quoting.step .plain 63 = .plain := rfl

omit hlib in
theorem substitute_of_build {statement : Statement} {ps : List Bytes} {before w : Bytes}
    (h : build statement ps before = (true, w)) : substitute 63 statement.query ps = some w := by
  obtain ⟨w', hw, he⟩ := build_eq_true.mp (congrArg Prod.fst h)
  obtain rfl : w = w' := congrArg Prod.snd (h.symm.trans he)
  exact hw

theorem region_at_mark {ps : List Parameter} {u v query : Bytes}
    (hplain : MarksAt quoting 63 .plain .plain (u ++ 63 :: v)) (hps : ∀ p ∈ ps, p.Admissible)
    (hw : substitute 63 (u ++ 63 :: v) (renderAll lib ps) = some query) :
    ∃ x p text y, substitute 63 u (renderAll lib ps) = some x ∧ ps[u.count 63]? = some p ∧
      p.render lib = some text ∧ query = x ++ text ++ y ∧
      quoting.evalFrom .plain x = .plain ∧ quoting.evalFrom .plain (x ++ text) = .plain ∧
      (∀ t, p = .string t → OneRegion text) := by
  obtain ⟨x, text, y, hx, ht, -, hq⟩ := substitute_at_mark hw
  obtain ⟨p, hp, hr⟩ := getElem?_renderAll hlib hps ht
  have hadm := hps p (List.mem_of_getElem? hp)
  obtain ⟨text', ht', htplain, hlit⟩ := render_plain hlib hadm
  obtain rfl : text = text' := by simpa [hr] using ht'
  have hxplain : quoting.evalFrom .plain x = .plain := by
    rw [evalFrom_substitute mark_plain hplain.left (renderAll_plain hlib hps) hx]
    exact hplain u v rfl
  refine ⟨x, p, text, y, hx, hp, hr, hq, hxplain, ?_, fun t hpt => ?_⟩
  · rw [DFA.evalFrom_of_append, hxplain, htplain]
  · rw [hlit t hpt]
    exact literal_oneRegion t

theorem state_at_letter {ps : List Parameter} {u v query : Bytes} {b : UInt8} (hb : b ≠ 63)
    (hplain : MarksAt quoting 63 .plain .plain (u ++ b :: v)) (hps : ∀ p ∈ ps, p.Admissible)
    (hw : substitute 63 (u ++ b :: v) (renderAll lib ps) = some query) :
    ∃ x y x₀, substitute 63 u (renderAll lib ps) = some x ∧ query = x ++ b :: y ∧
      substitute 63 u (renderAll lib (ps.map Parameter.emptied)) = some x₀ ∧
      quoting.evalFrom .plain x = quoting.evalFrom .plain x₀ := by
  have hps₀ := emptied_admissible hps
  have hmarks : MarksAt quoting 63 .plain .plain u := hplain.left
  obtain ⟨x, y, hx, hq⟩ := substitute_at_letter hb hw
  -- as many parameters, so the template does not run out of them either
  obtain ⟨x₀, hx₀⟩ : ∃ x₀, substitute 63 u (renderAll lib (ps.map Parameter.emptied)) = some x₀ := by
    rw [← Option.isSome_iff_exists, substitute_isSome_iff, length_renderAll hlib hps₀,
      List.length_map, ← length_renderAll hlib hps, ← substitute_isSome_iff, hx]
    rfl
  refine ⟨x, y, x₀, hx, hq, hx₀, ?_⟩
  rw [evalFrom_substitute mark_plain hmarks (renderAll_plain hlib hps) hx,
    evalFrom_substitute mark_plain hmarks (renderAll_plain hlib hps₀) hx₀]

end Rendering

/-- Strings cannot change how a statement is read. Each inserted string is one
quoted region that starts and ends outside of quotes; every byte of the template
is read in the state it has when all strings are empty; and two lists that
differ in the contents of strings only agree on all that is outside of quotes. -/
theorem build_keeps_structure {lib : Externals} (hlib : BackslashEscaping lib.mysqlEscapeString)
    {statement : Statement} (hplain : MarksAt quoting 63 .plain .plain statement.query)
    {ps : List Parameter} (hps : ∀ p ∈ ps, p.Admissible) {before query : Bytes}
    (hb : build statement (renderAll lib ps) before = (true, query)) :
    (renderAll lib ps).length = ps.length ∧
    (∀ u v, statement.query = u ++ 63 :: v → ∃ x p text y,
      substitute 63 u (renderAll lib ps) = some x ∧ ps[u.count 63]? = some p ∧
        p.render lib = some text ∧ query = x ++ text ++ y ∧
        quoting.evalFrom .plain x = .plain ∧ quoting.evalFrom .plain (x ++ text) = .plain ∧
        (∀ t, p = .string t → OneRegion text)) ∧
    (∀ u b v, statement.query = u ++ b :: v → b ≠ 63 → ∃ x y x₀,
      substitute 63 u (renderAll lib ps) = some x ∧ query = x ++ b :: y ∧
        substitute 63 u (renderAll lib (ps.map Parameter.emptied)) = some x₀ ∧
        quoting.evalFrom .plain x = quoting.evalFrom .plain x₀) ∧
    (∀ ps' before' query', (∀ p ∈ ps', p.Admissible) →
      ps'.map Parameter.emptied = ps.map Parameter.emptied →
      build statement (renderAll lib ps') before' = (true, query') →
      readIn quoting .plain .plain query' = readIn quoting .plain .plain query) := by
  have hw := substitute_of_build hb
  refine ⟨length_renderAll hlib hps, fun u v hu => ?_, fun u b v hu hb63 => ?_, ?_⟩
  · exact region_at_mark hlib (hu ▸ hplain) hps (hu ▸ hw)
  · exact state_at_letter hlib hb63 (hu ▸ hplain) hps (hu ▸ hw)
  · intro ps' before' query' hps' he hb'
    have hout : ps'.map Parameter.outside = ps.map Parameter.outside := by
      simpa [Function.comp_def, Parameter.outside_emptied] using
        congrArg (List.map Parameter.outside) he
    apply readIn_substitute mark_plain hplain
    · exact renderAll_plain hlib hps'
    · exact renderAll_plain hlib hps
    · rw [readIn_renderAll hlib hps', readIn_renderAll hlib hps, hout]
    · exact substitute_of_build hb'
    · exact hw

theorem build_keeps_structure_quote :
    ∃ x text y, [97, 61, 34, 92, 34, 92, 92, 34] = x ++ text ++ y ∧ OneRegion text := by
  let lib : Externals := ⟨fun text => text.flatMap escapeByte, fun _ => []⟩
  have hlib : BackslashEscaping lib.mysqlEscapeString := fun _ => rfl
  have hr : renderAll lib [.string [34, 92]] = [literal [34, 92]] := by
    simp [renderAll, Parameter.render, escapeStringParameter_eq hlib]
  have hb : build ⟨[97, 61, 63], [115]⟩ (renderAll lib [.string [34, 92]]) [] =
      (true, [97, 61, 34, 92, 34, 92, 92, 34]) := by
    rw [hr]
    exact build_of_substitute (by decide) []
  have hplain : MarksAt quoting 63 .plain .plain [97, 61, 63] := by
    intro u v h
    rcases u with _ | ⟨a, _ | ⟨b, _ | ⟨c, u⟩⟩⟩ <;> simp at h
    obtain ⟨rfl, rfl, _⟩ := h
    rfl
  have hps : ∀ p ∈ [Parameter.string [34, 92]], p.Admissible := by simp [Parameter.Admissible]
  obtain ⟨x, p, text, y, _, hp, _, hq, _, _, hone⟩ :=
    (build_keeps_structure hlib hplain hps hb).2.1 [97, 61] [] rfl
  exact ⟨x, text, y, hq, hone [34, 92] (by simpa using hp.symm)⟩

end MysqlPlugin.StatementStructure
