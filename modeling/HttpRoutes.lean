import HttpRoutes.Json.Reader
import HttpRoutes.Json.Record
import HttpRoutes.Main
import HttpRoutes.Method
import HttpRoutes.Proofs.Coverage
import HttpRoutes.Proofs.InnerNodes
import HttpRoutes.Proofs.OrderIndependence
import HttpRoutes.Proofs.Outcomes
import HttpRoutes.Proofs.TableErrors
import HttpRoutes.RouteError
import HttpRoutes.Proofs.PathGrammar
import HttpRoutes.Proofs.DisplayedRows
import HttpRoutes.Proofs.ShadowedRows
import HttpRoutes.Proofs.AppendedRows
import HttpRoutes.Proofs.RepeatedRows
import HttpRoutes.Proofs.TreeLaws
import HttpRoutes.Proofs.RequestLines
