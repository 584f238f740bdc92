import PathwayRuntime.Log.Chain
import PathwayRuntime.Model.Column

/-!
# The evidence chain read back from the store

* `payload_of_reach`: every stored payload is what a redaction policy made of it.
* **`evidence_reads_back_valid`**: in every run of calls made one after another `verify_evidence`
  accepts the events of every pathway as they are read back from the store.
-/

set_option autoImplicit false

namespace Rpr

open Resume

/-- Every event of a log carries a redacted payload. -/
theorem payload_of_reach {py : Platform} {order : Option RowOrder} {tr : List Record} {w : World}
    {p : String} (h : Reach py order tr w) : ∀ e ∈ w.log p, e.payload.IsPayload := by
  induction h using Reach.induct with
  | start => exact fun e he => absurd he List.not_mem_nil
  | step t c s tr w h ih hj ha h' =>
    rcases log_effect (p := p) hj ha with ⟨e, hins, -, hlog⟩ | hlog
    · obtain ⟨ty, actor, payload, base, hseal⟩ := inserted_sealed hj hins
      rw [hlog]
      exact List.forall_mem_cons.mpr
        ⟨RedactionPolicy.redact_isPayload hseal.fields.2.2.2.1, ih⟩
    · rwa [hlog]

/-- **The evidence chain is valid in every sequential run**, with arbitrary payloads and redaction
policies and with crashes between any two operations: `verify_chain` accepts the events of every
pathway as they are read back from the store. -/
theorem evidence_reads_back_valid (py : Platform) (codec : JsonCodec) (order : Option RowOrder)
    (calls : List (Call × List Oracle)) (p : String) :
    ∃ index reason, verifyChainDicts py
      (((sequential py order calls).world.log p).reverse.map codec.readBack) = .ok (true, index, reason) := by
  obtain ⟨hreach, hserial, -⟩ := sequential_reach py order calls
  obtain ⟨hlinked, hverify⟩ := linked_of_reach (p := p) hreach (undisturbed_of_serial hreach hserial)
  have hvalid := verifyChain_valid.mpr ⟨hverify, hlinked⟩
  have hpayload := payload_of_reach (p := p) hreach
  rw [verifyChainDicts_readBack codec (fun e he => hpayload e (List.mem_reverse.mp he))
    fun e he => hverify e (List.mem_reverse.mp he)]
  exact ⟨_, _, congrArg Except.ok (Prod.ext hvalid rfl)⟩

end Rpr
