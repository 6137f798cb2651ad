import OpenSound.Proofs.Building
import OpenSound.Proofs.Legality
/-!
# Patterns without wildcards

Addresses and patterns are read by two readers that share nothing but the reserved characters. They
agree about all texts but those with a comma, which no address may hold and which stands for itself in a
pattern outside braces. So an address is a pattern for itself, and a pattern without wildcards is an
address unless it holds a comma. One that does is a pattern for nothing that arrives: a dispatcher is
asked for the handlers of valid addresses only, and among those its handler never is.
-/

namespace OpenSound

/-! ### Texts -/

namespace Pattern

/-- Nothing after the slash has a meaning in patterns, except that there may be commas. -/
def LiteralText (s : String) : Prop :=
  s.toList.head? = some '/' ∧ ∀ c ∈ s.toList, c ∈ Address.reserved → c = ','

theorem spells_map_char {cs : List Char} (h : ∀ c ∈ cs, c ∈ Address.reserved → c = ',') :
    Spells (cs.map .char) cs := by
  refine ⟨fun e he => ?_, by simp [List.flatMap_map, Element.text]⟩
  obtain ⟨c, hc, rfl⟩ := List.mem_map.1 he
  exact or_iff_not_imp_left.2 fun hreserved => h c hc (not_not.1 hreserved)

/-- A pattern is compared as it stands exactly if its text says so, character by character. -/
theorem isLiteral_iff {p : Pattern} : p.isLiteral = true ↔ LiteralText p.text := by
  rw [LiteralText, and_iff_right p.slash]
  apply Iff.intro
  · intro h c hc hreserved
    have hproper := p.spells_elements.1
    rw [elements_of_isLiteral h] at hproper
    exact (hproper _ (List.mem_map_of_mem hc)).resolve_left (not_not.2 hreserved)
  · intro h
    rw [isLiteral_eq, arePlain_tokens_iff]
    exact ⟨_, eq_of_spells p.spells_elements (spells_map_char h)⟩

theorem exists_isLiteral_iff {s : String} :
    (∃ p, compile s = .ok p ∧ p.isLiteral = true) ↔ LiteralText s := by
  apply Iff.intro
  · intro h
    obtain ⟨p, hp, hliteral⟩ := h
    obtain rfl := text_of_compile hp
    exact isLiteral_iff.1 hliteral
  · intro h
    exact ⟨_, compile_of_spells h.1 (spells_map_char h.2), isLiteral_iff.2 h⟩

theorem accepts_iff_of_isLiteral {p : Pattern} (h : p.isLiteral = true) {address : String} :
    p.accepts address = true ↔ address = p.text := by
  cases hmatcher : p.matcher with
  | exact => simp [accepts, hmatcher]
  | regex _ => simp [isLiteral, hmatcher] at h

end Pattern

open Pattern (LiteralText)

theorem Address.validate_eq_ok_iff_literalText {s : String} :
    validate s = .ok () ↔ LiteralText s ∧ ',' ∉ s.toList := by
  rw [validate_eq_ok_iff, Valid, LiteralText, and_assoc]
  apply and_congr_right'
  apply Iff.intro
  · intro h
    exact ⟨fun c hc hreserved => absurd hreserved (h c hc), fun hcomma => h _ hcomma (by decide)⟩
  · intro h c hc hreserved
    exact h.2 (h.1 c hc hreserved ▸ hc)

/-- A comma keeps a pattern without wildcards from every address. -/
theorem Pattern.accepts_eq_false_of_comma {p : Pattern} (hliteral : p.isLiteral = true)
    (hcomma : ',' ∈ p.text.toList) {address : String} (hvalid : Address.Valid address) :
    p.accepts address = false := by
  rw [← Bool.not_eq_true, accepts_iff_of_isLiteral hliteral]
  intro haddress
  rw [haddress] at hvalid
  exact hvalid.2 _ hcomma (by decide)

/-! ### Serving -/

theorem Receive.valid_of_mem_messages {limit : Nat} {r : Receive} {m : Message}
    (h : m ∈ r.messages limit) : Address.Valid m.address := by
  obtain ⟨_, _, p, -, hdecode, hm⟩ := exists_datagram_of_mem_messages h
  exact ((Packet.wireForm_of_decode hdecode).forall_mem_messages m hm).1

namespace Dispatcher

/-- The same handlers are called for every address that can arrive. -/
def Agrees (d d' : Dispatcher Handler) : Prop :=
  ∀ address, Address.Valid address → d.handlersFor address = d'.handlersFor address

variable {d d' : Dispatcher Handler}

theorem Agrees.dispatchAll_eq (h : d.Agrees d') {messages : List Message}
    (hvalid : ∀ m ∈ messages, Address.Valid m.address) (earlier : List Call) :
    d.dispatchAll earlier messages = d'.dispatchAll earlier messages := by
  induction messages generalizing earlier with
  | nil => rfl
  | cons m messages ih =>
    obtain ⟨hm, hmessages⟩ := List.forall_mem_cons.1 hvalid
    have hfirst : d.dispatch earlier m = d'.dispatch earlier m := by
      rw [dispatch, dispatch, h _ hm]
    rw [dispatchAll, dispatchAll, hfirst, ih hmessages]

theorem Agrees.dispatchAll_messages (h : d.Agrees d') (limit : Nat) (reads : List Receive)
    (earlier : List Call) :
    d.dispatchAll earlier (reads.flatMap (Receive.messages limit)) =
      d'.dispatchAll earlier (reads.flatMap (Receive.messages limit)) := by
  apply h.dispatchAll_eq
  intro m hm
  obtain ⟨r, -, hmessage⟩ := List.mem_flatMap.1 hm
  exact Receive.valid_of_mem_messages hmessage

theorem Agrees.dispatchAll_receive (h : d.Agrees d') (limit : Nat) (r : Receive)
    (earlier : List Call) :
    d.dispatchAll earlier (r.messages limit) = d'.dispatchAll earlier (r.messages limit) :=
  h.dispatchAll_eq (fun _ hm => Receive.valid_of_mem_messages hm) earlier

theorem Agrees.serves (h : d.Agrees d') {limit : Nat} {earlier : List Call}
    {outcomes reads : List Receive} {ending : Ending}
    (hserves : d.Serves limit earlier outcomes reads ending) :
    d'.Serves limit earlier outcomes reads ending := by
  induction hserves with
  | failed reason => exact .failed reason
  | closedReceiving hnone hcloses => exact .closedReceiving hnone hcloses
  | unreadable hread => exact .unreadable hread
  | foundClosed hread hcloses =>
    rw [closes, h.dispatchAll_receive] at hcloses
    exact .foundClosed hread hcloses
  | delivered hread hopen _ ih =>
    rw [closes, h.dispatchAll_receive] at hopen
    rw [h.dispatchAll_receive] at ih
    exact .delivered hread hopen ih

end Dispatcher

namespace Endpoint

/-- Serving depends on a table through the handlers for valid addresses alone. -/
theorem serve_eq_of_agrees (e : Endpoint) {methods methods' : Option (Methods Handler)}
    {d d' : Dispatcher Handler} (hbuild : Dispatcher.build methods = .ok d)
    (hbuild' : Dispatcher.build methods' = .ok d') (h : d.Agrees d') :
    e.serve methods = e.serve methods' := by
  obtain ⟨hidle, hserve⟩ | ⟨hattached, hopen, reads, ending, hserves, hserve⟩ := e.serve_cases hbuild
  · rw [hserve, serve_of_idle hbuild' hidle]
  · rw [hserve, serve_of_serves hbuild' hattached hopen (h.serves hserves), h.dispatchAll_messages]

end Endpoint

/-! ### Tables -/

namespace Dispatcher

theorem handlersFor_cons (route : Pattern × Handler) (routes : List (Pattern × Handler))
    (address : String) :
    (Dispatcher.mk (route :: routes)).handlersFor address =
      (if route.1.accepts address then [route.2] else []) ++
        (Dispatcher.mk routes).handlersFor address := by
  simp only [handlersFor, List.filter_cons]
  split <;> rfl

theorem exists_entry_of_mem_handlersFor {entries : List (String × Handler)}
    {routes : List (Pattern × Handler)} (hroutes : List.Forall₂ Routes entries routes)
    {address : String} {h : Handler} (hmem : h ∈ (Dispatcher.mk routes).handlersFor address) :
    ∃ entry ∈ entries, entry.2 = h ∧ Pattern.textAccepts entry.1 address = true := by
  induction hroutes with
  | nil => cases hmem
  | @cons entry route entries routes hroute _ ih =>
    rw [handlersFor_cons, List.mem_append] at hmem
    rcases hmem with hfirst | hothers
    · split at hfirst
      · rename_i haccepts
        refine ⟨entry, List.mem_cons_self, ?_, by rw [textAccepts_of_routes hroute, haccepts]⟩
        rw [List.mem_singleton.1 hfirst, hroute.2]
      · cases hfirst
    · obtain ⟨entry', hentry, hsame⟩ := ih hothers
      exact ⟨entry', List.mem_cons_of_mem _ hentry, hsame⟩

theorem exists_routes_put {s : String} {p : Pattern} (hread : Pattern.compile s = .ok p)
    (handler : Handler) {entries : List (String × Handler)} {routes : List (Pattern × Handler)}
    (hroutes : List.Forall₂ Routes entries routes) (hs : s ∈ entries.map Prod.fst) :
    ∃ routes', List.Forall₂ Routes (Methods.put s handler entries) routes' ∧
      ∀ address, p.accepts address = false →
        (Dispatcher.mk routes').handlersFor address = (Dispatcher.mk routes).handlersFor address := by
  induction hroutes with
  | nil => cases hs
  | @cons entry route entries routes hroute hothers ih =>
    obtain ⟨t, h⟩ := entry
    rw [Methods.put]
    split
    · rename_i ht
      subst ht
      have hsame : route.1 = p := Except.ok.inj (hroute.1.symm.trans hread)
      refine ⟨(p, handler) :: routes, .cons ⟨hread, rfl⟩ hothers, fun address haddress => ?_⟩
      rw [handlersFor_cons, handlersFor_cons, hsame, haddress]
      rfl
    · rename_i ht
      obtain ⟨routes', hroutes', hagree⟩ := ih ((List.mem_cons.1 hs).resolve_left (Ne.symm ht))
      refine ⟨route :: routes', .cons hroute hroutes', fun address haddress => ?_⟩
      rw [handlersFor_cons, handlersFor_cons, hagree address haddress]

end Dispatcher

theorem Methods.entries_ne_nil_of_mem {s : String} {ms : Methods Handler} (h : s ∈ ms.patterns) :
    ms.entries ≠ [] := by
  intro hnil
  rw [patterns, hnil] at h
  cases h

namespace Endpoint

/-- A call is one of a handler that stands in the table with a pattern that the message matches. -/
theorem exists_entry_of_mem_calls (e : Endpoint) {ms : Methods Handler} {call : Call}
    (h : call ∈ (e.serve (some ms)).calls) :
    ∃ entry ∈ ms.entries, entry.2.name = call.handler ∧
      Pattern.textAccepts entry.1 call.message.address = true := by
  cases hbuild : Dispatcher.build (some ms) with
  | error fault =>
    rw [serve_of_build_eq_error hbuild] at h
    cases h
  | ok d =>
    obtain ⟨received, -, -, hdelivers⟩ := e.exists_delivers hbuild
    have hmade : call.made ∈ (e.serve (some ms)).calls.map Call.made := List.mem_map_of_mem h
    rw [hdelivers.made_eq] at hmade
    obtain ⟨r, -, hr⟩ := List.mem_flatMap.1 hmade
    obtain ⟨m, -, hm⟩ := List.mem_flatMap.1 hr
    obtain ⟨handler, hhandler, hcall⟩ := List.mem_map.1 hm
    obtain ⟨entry, hentry, rfl, haccepts⟩ :=
      Dispatcher.exists_entry_of_mem_handlersFor (Dispatcher.build_eq_ok_iff.1 hbuild).2 hhandler
    have hmessage : m = call.message := congrArg Prod.snd hcall
    exact ⟨entry, hentry, congrArg Prod.fst hcall, hmessage ▸ haccepts⟩

theorem valid_of_mem_calls (e : Endpoint) {methods : Option (Methods Handler)} {call : Call}
    (h : call ∈ (e.serve methods).calls) : Address.Valid call.message.address := by
  obtain ⟨_, _, p, -, hdecode, hm⟩ := e.exists_datagram_of_mem_calls h
  exact ((Packet.wireForm_of_decode hdecode).forall_mem_messages _ hm).1

/-- The handler of a pattern that no valid address matches makes no difference to serving. -/
theorem serve_insert (e : Endpoint) {ms : Methods Handler} {s : String} {p : Pattern}
    (hread : Pattern.compile s = .ok p)
    (hnever : ∀ address, Address.Valid address → p.accepts address = false)
    (hs : s ∈ ms.patterns) (handler : Handler) :
    e.serve (some (ms.insert s handler)) = e.serve (some ms) := by
  have hpatterns : (ms.insert s handler).patterns = ms.patterns := by
    rw [Methods.patterns_insert, if_pos hs]
  have hentries := Methods.entries_ne_nil_of_mem hs
  have hentries' := Methods.entries_ne_nil_of_mem (hpatterns ▸ hs)
  cases hbuild : Dispatcher.build (some ms) with
  | error fault =>
    have hbuild' : Dispatcher.build (some (ms.insert s handler)) = .error fault := by
      rw [Dispatcher.build_eq_error_iff hentries', hpatterns]
      exact (Dispatcher.build_eq_error_iff hentries).1 hbuild
    rw [serve_of_build_eq_error hbuild, serve_of_build_eq_error hbuild']
  | ok d =>
    obtain ⟨routes', hroutes', hagree⟩ :=
      Dispatcher.exists_routes_put hread handler (Dispatcher.build_eq_ok_iff.1 hbuild).2 hs
    have hbuild' := Dispatcher.build_eq_ok_iff.2 ⟨hentries', hroutes'⟩
    exact e.serve_eq_of_agrees hbuild' hbuild
      fun address hvalid => hagree address (hnever address hvalid)

end Endpoint

/-! ### Where the two readers agree -/

/-- Texts are patterns without wildcards, and addresses, by the characters that they hold. So an address
is a pattern for itself alone, and a pattern with wildcards is no address. A pattern without wildcards
that holds a comma matches no address, and its handler is never called, whatever an endpoint receives:
every call is of a handler that stands with another pattern, and any other handler in its place leaves
serving as it is. -/
theorem Pattern.literal_iff_and_valid_iff (s : String) :
    ((∃ p, compile s = .ok p ∧ p.isLiteral = true) ↔ LiteralText s) ∧
    (Address.validate s = .ok () ↔ LiteralText s ∧ ',' ∉ s.toList) ∧
    (Address.validate s = .ok () → ∃ p, compile s = .ok p ∧ p.isLiteral = true ∧
      ∀ address, p.accepts address = true ↔ address = s) ∧
    (∀ p, compile s = .ok p → p.isLiteral = false → ∃ fault, Address.validate s = .error fault) ∧
    ∀ p, compile s = .ok p → p.isLiteral = true → ',' ∈ s.toList →
      (∀ address, Address.validate address = .ok () → p.accepts address = false) ∧
      ∀ (e : Endpoint) (ms : Methods Handler),
        (∀ call ∈ (e.serve (some ms)).calls, ∃ entry ∈ ms.entries, entry.1 ≠ s ∧
          entry.2.name = call.handler ∧ textAccepts entry.1 call.message.address = true) ∧
        (s ∈ ms.patterns → ∀ handler, e.serve (some (ms.insert s handler)) = e.serve (some ms)) := by
  refine ⟨exists_isLiteral_iff, Address.validate_eq_ok_iff_literalText, fun hvalid => ?_,
    fun p hread hwild => ?_, fun p hread hliteral hcomma => ?_⟩
  · obtain ⟨p, hread, hliteral⟩ :=
      exists_isLiteral_iff.2 (Address.validate_eq_ok_iff_literalText.1 hvalid).1
    refine ⟨p, hread, hliteral, fun address => ?_⟩
    rw [accepts_iff_of_isLiteral hliteral, text_of_compile hread]
  · rw [exists_eq_error_iff]
    intro h
    obtain ⟨_, hvalid⟩ := h
    have hliteral := isLiteral_iff.2
      (text_of_compile hread ▸ (Address.validate_eq_ok_iff_literalText.1 hvalid).1)
    rw [hwild] at hliteral
    cases hliteral
  · have hnever : ∀ address, Address.Valid address → p.accepts address = false :=
      fun address => accepts_eq_false_of_comma hliteral ((text_of_compile hread).symm ▸ hcomma)
    refine ⟨fun address hvalid => hnever address (Address.validate_eq_ok_iff.1 hvalid),
      fun e ms => ⟨fun call hcall => ?_, fun hs handler => e.serve_insert hread hnever hs handler⟩⟩
    obtain ⟨entry, hentry, hname, haccepts⟩ := e.exists_entry_of_mem_calls hcall
    refine ⟨entry, hentry, fun hsame => ?_, hname, haccepts⟩
    have hrefused := hnever _ (e.valid_of_mem_calls hcall)
    rw [hsame, textAccepts, hread] at haccepts
    exact absurd haccepts (by simp [hrefused])

/-- The first pattern looks like the address of what arrives but for a comma. -/
def Methods.idle : Methods Handler := ⟨[("/a,", .closing), ("/*", .failing)]⟩

theorem Pattern.literal_iff_and_valid_iff_idle :
    (Address.validate "/a" = .ok () ∧
      ∃ p, compile "/a" = .ok p ∧ p.isLiteral = true ∧
        ∀ address, p.accepts address = true ↔ address = "/a") ∧
    (∃ fault, Address.validate "/*" = .error fault) ∧
    (∃ p, compile "/a," = .ok p ∧ p.isLiteral = true ∧ p.accepts "/a" = false) ∧
    let e := Endpoint.listening [.plain, .plain]
    (e.serve (some .idle)).calls.map Call.made = [("failing", ⟨"/a", []⟩), ("failing", ⟨"/a", []⟩)] ∧
      e.serve (some (Methods.idle.insert "/a," .failing)) = e.serve (some .idle) := by
  have hvalid : Address.validate "/a" = .ok () := Address.validate_eq_ok_iff.2 (by decide)
  have hwild : Spells [.char '/', .anyRun] "/*".toList := by decide
  have hcomma : Spells [.char '/', .char 'a', .char ','] "/a,".toList := by decide
  obtain ⟨-, -, haddress, -⟩ := literal_iff_and_valid_iff "/a"
  obtain ⟨-, -, -, hrefused, -⟩ := literal_iff_and_valid_iff "/*"
  obtain ⟨-, -, -, -, hunused⟩ := literal_iff_and_valid_iff "/a,"
  have hread := compile_of_spells (by decide) hcomma
  obtain ⟨hnever, hserve⟩ := hunused _ hread rfl (by decide)
  refine ⟨⟨hvalid, haddress hvalid⟩, hrefused _ (compile_of_spells (by decide) hwild) rfl,
    ⟨_, hread, rfl, hnever "/a" hvalid⟩, by decide +kernel, ?_⟩
  exact (hserve _ .idle).2 (by decide) _

end OpenSound
